import ReplicatedLog.Proofs.Log.Expiry
import ReplicatedLog.Proofs.Log.Scanning
import ReplicatedLog.Proofs.Segment.Code

namespace ReplicatedLog

/-- An outcome that no name of a segment is blamed for. -/
def Unblamed {α : Type} (outcome : Except Fault α) : Prop :=
  ∀ name cause, outcome ≠ .error (.segmentName name cause)

namespace Unblamed

variable {α β : Type}

theorem ok (value : α) : Unblamed (.ok value) :=
  fun _ _ => nofun

theorem io (fault : IoFault) : Unblamed (.error (.io fault) : Except Fault α) :=
  fun _ _ => nofun

/-- What a fault is blamed on does not depend on the work that it ended. -/
theorem error {fault : Fault} (hfault : Unblamed (.error fault : Except Fault α)) :
    Unblamed (.error fault : Except Fault β) :=
  fun name cause hblamed => hfault name cause (congrArg _ (Except.error.inj hblamed))

end Unblamed

/-- The name tells when the segment was created. -/
def Segment.Dated (segment : Segment) : Prop :=
  ∃ created, segment.created = .ok created

/-- A name that is made for a new segment is accepted only if it tells a time. -/
theorem Segment.dated_of_made {start : Nat} {now : Instant} {segment : Segment}
    (hmade : Segment.ofName (SegmentName.encode start now) = .ok segment) : segment.Dated := by
  obtain ⟨hname, hoffset⟩ := Segment.ofName_eq_ok_iff.mp hmade
  by_cases hyear : now.InCalendar
  · refine ⟨⟨now.seconds, 0⟩, ?_⟩
    rw [Segment.created, hname]
    exact SegmentName.created_encode hyear
  · rw [SegmentName.offset, SegmentName.split_encode_of_not_inCalendar hyear] at hoffset
    cases hoffset

namespace StoredLog

variable {stored : StoredLog} {now : Instant} {segment oldest next : Segment} {rest : List Segment}
  {fault : Fault} {gate : Nat}

/-- Every segment of a log tells when it was created. -/
def Dated (stored : StoredLog) : Prop :=
  ∀ segment ∈ stored.log.segments, segment.Dated

theorem dated_of_createSegment {dir after : Directory} {start : Nat}
    (hcreate : createSegment dir start now = (.ok segment, after)) : segment.Dated := by
  unfold createSegment at hcreate
  dsimp only at hcreate
  split at hcreate
  · cases (Prod.mk.inj hcreate).1
  · exact Segment.dated_of_made (Prod.mk.inj hcreate).1

namespace Dated

theorem roll (hdated : stored.Dated) (now : Instant) : (stored.roll now).2.Dated := by
  unfold StoredLog.roll
  split
  · exact hdated
  · split
    · exact hdated
    · exact hdated
    · split
      · exact hdated
      next made dir hcreate =>
        intro segment hmem
        rcases List.mem_append.mp hmem with hmem | hmem
        · exact hdated segment hmem
        · rw [List.mem_singleton.mp hmem]
          exact dated_of_createSegment hcreate

theorem resumeAt (hdated : stored.Dated) (offset : Nat) (now : Instant) :
    (stored.resumeAt offset now).2.Dated := by
  unfold StoredLog.resumeAt
  split
  · exact hdated
  · split
    · exact hdated
    · split
      · exact hdated
      next made dir hcreate =>
        intro segment hmem
        rw [List.mem_singleton.mp hmem]
        exact dated_of_createSegment hcreate

theorem activeSegment (hdated : stored.Dated) (rollSize : Nat) (now : Instant) :
    (stored.activeSegment rollSize now).2.Dated := by
  unfold StoredLog.activeSegment
  split
  · exact hdated.roll now
  · split
    · exact hdated
    · split
      · exact hdated
      · exact hdated.roll now

theorem openSegment (hdated : stored.Dated) {segment : Segment} {opened : Nat × StoredLog}
    (hopen : stored.openSegment segment now = .ok opened) : opened.2.Dated := by
  unfold StoredLog.openSegment at hopen
  split at hopen
  · obtain rfl := Except.ok.inj hopen
    exact hdated
  · split at hopen
    · cases hopen
    · obtain rfl := Except.ok.inj hopen
      exact hdated

theorem append (hdated : stored.Dated) (data : Bytes) (rollSize : Nat) (now : Instant) :
    (stored.append data rollSize now).2.Dated := by
  have hactive := hdated.activeSegment rollSize now
  unfold StoredLog.append
  split
  next hsegment =>
    rw [hsegment] at hactive
    exact hactive
  next hsegment =>
    rw [hsegment] at hactive
    split
    · exact hactive
    next hopen => exact hactive.openSegment hopen

theorem appendAt (hdated : stored.Dated) (offset : Nat) (data : Bytes) (rollSize : Nat)
    (now : Instant) : (stored.appendAt offset data rollSize now).2.Dated := by
  unfold StoredLog.appendAt
  split
  · exact hdated
  · split
    · exact hdated
    · exact hdated.append data rollSize now

end Dated

/-- The loop over the sealed segments leaves some of them, and no name stops it. -/
theorem dropSealed_of_dated (retain gate : Nat) (now : Instant) {segments : List Segment}
    {dir : Directory} (hdated : ∀ segment ∈ segments, segment.Dated) :
    Unblamed (dropSealed retain gate now segments dir).1 ∧
      ∀ segment ∈ (dropSealed retain gate now segments dir).2.1, segment ∈ segments := by
  fun_induction dropSealed retain gate now segments dir with
  | case1 => exact ⟨.ok (), fun _ hmem => hmem⟩
  | case2 oldest next rest dir kept hgate fault hcreated =>
    obtain ⟨created, hvalid⟩ := hdated oldest List.mem_cons_self
    cases hvalid.symm.trans hcreated
  | case3 => exact ⟨.ok (), fun _ hmem => hmem⟩
  | case4 => exact ⟨.io _, fun _ hmem => hmem⟩
  | case5 oldest next rest dir hgate created hcreated hold left hdiscard ih =>
    obtain ⟨hfault, hmem⟩ := ih fun segment hmem => hdated segment (List.mem_cons_of_mem _ hmem)
    exact ⟨hfault, fun segment hleft => List.mem_cons_of_mem _ (hmem segment hleft)⟩
  | case6 => exact ⟨.ok (), fun _ hmem => hmem⟩

namespace Dated

theorem cleanupSealed (hdated : stored.Dated) (retain gate : Nat) (now : Instant) :
    Unblamed (stored.cleanupSealed retain gate now).1 ∧
      (stored.cleanupSealed retain gate now).2.Dated := by
  obtain ⟨hfault, hmem⟩ := dropSealed_of_dated retain gate now hdated
  exact ⟨hfault, fun segment hleft => hdated segment (hmem segment hleft)⟩

theorem removeDirectory (hdated : stored.Dated) :
    Unblamed stored.removeDirectory.1 ∧ stored.removeDirectory.2.Dated := by
  unfold StoredLog.removeDirectory
  split
  · exact ⟨.io _, hdated⟩
  · exact ⟨.ok _, hdated⟩

theorem cleanup (hdated : stored.Dated) (retain : Nat) (now : Instant) :
    Unblamed (stored.cleanup retain now).1 ∧ (stored.cleanup retain now).2.Dated := by
  obtain ⟨hfault, hkept⟩ := hdated.cleanupSealed retain stored.log.gate now
  unfold StoredLog.cleanup
  split
  · exact hdated.removeDirectory
  · dsimp only
    cases houtcome : (stored.cleanupSealed retain stored.log.gate now).1 with
    | ok => exact ⟨.ok _, hkept⟩
    | error fault =>
      rw [houtcome] at hfault
      exact ⟨hfault.error, hkept⟩

theorem dropLast (hdated : stored.Dated) (last : Segment) (retain : Nat) (now : Instant) :
    Unblamed (stored.dropLast last retain now).1 ∧ (stored.dropLast last retain now).2.Dated := by
  unfold StoredLog.dropLast
  split
  · exact ⟨.io _, hdated⟩
  · split
    · exact ⟨.ok _, hdated⟩
    · split
      · exact ⟨.io _, hdated⟩
      · exact removeDirectory fun _ hmem => absurd hmem List.not_mem_nil

theorem cleanupAll (hdated : stored.Dated) (retain external : Nat) (now : Instant) :
    Unblamed (stored.cleanupAll retain external now).1 ∧
      (stored.cleanupAll retain external now).2.Dated := by
  have hsealed := hdated.cleanupSealed retain (min stored.log.gate external) now
  unfold StoredLog.cleanupAll
  split
  · exact hdated.removeDirectory
  · dsimp only
    split
    next hcleaned =>
      rw [hcleaned] at hsealed
      exact ⟨hsealed.1.error, hsealed.2⟩
    next hcleaned =>
      rw [hcleaned] at hsealed
      split
      · split
        · exact ⟨.ok _, hsealed.2⟩
        · exact hsealed.2.dropLast _ retain now
      · exact ⟨.ok _, hsealed.2⟩

theorem onReader {α : Type} (hdated : stored.Dated) (id : Nat)
    (work : String → Directory → Cursor → Except Fault α × Cursor) :
    (stored.onReader id work).2.Dated := by
  unfold StoredLog.onReader
  split
  · exact hdated
  · exact hdated

/-- No action adds a segment whose name tells no time. -/
theorem perform (hdated : stored.Dated) (now : Instant) (action : LogAction) :
    (stored.perform now action).Dated := by
  cases action with
  | append data rollSize => exact hdated.append data rollSize now
  | appendAt offset data rollSize => exact hdated.appendAt offset data rollSize now
  | roll => exact hdated.roll now
  | resumeAt offset => exact hdated.resumeAt offset now
  | cleanup retain => exact (hdated.cleanup retain now).2
  | cleanupAll retain external => exact (hdated.cleanupAll retain external now).2
  | addReader name offset =>
    unfold StoredLog.perform
    dsimp only
    split
    · exact hdated
    next hadd =>
      obtain ⟨cursor, -, hadded⟩ := TopicLog.addReader_eq_ok hadd
      rw [(Prod.mk.inj hadded).2]
      exact hdated
  | removeReader id => exact hdated
  | hasMore id => exact hdated.onReader id _
  | nextRegion id limit => exact hdated.onReader id _
  | consume id length => exact hdated.onReader id _
  | seek id offset => exact hdated.onReader id _

end Dated

/-- The log after actions one behind the other, each at a time of its own. -/
def performAll (stored : StoredLog) (actions : List (Instant × LogAction)) : StoredLog :=
  actions.foldl (fun stored action => stored.perform action.1 action.2) stored

theorem Dated.performAll (hdated : stored.Dated) (actions : List (Instant × LogAction)) :
    (stored.performAll actions).Dated := by
  induction actions generalizing stored with
  | nil => exact hdated
  | cons action rest ih => exact ih (hdated.perform action.1 action.2)

/-- A log whose oldest segment tells no time stays as it is once that segment could go, whoever cleans it
    up and when. -/
theorem cleanupSealed_of_undated (hsegments : stored.log.segments = oldest :: next :: rest)
    (hcreated : oldest.created = .error fault) (hgate : next.offset ≤ gate) (retain : Nat)
    (now : Instant) : stored.cleanupSealed retain gate now = (.error fault, stored) := by
  unfold cleanupSealed
  rw [hsegments, dropSealed, if_neg (not_lt.mpr hgate), hcreated]
  dsimp only
  rw [← hsegments]

theorem cleanup_of_undated (hsegments : stored.log.segments = oldest :: next :: rest)
    (hcreated : oldest.created = .error fault) (hgate : next.offset ≤ stored.log.gate) (retain : Nat)
    (now : Instant) : stored.cleanup retain now = (.error fault, stored) := by
  have hsome : ¬ stored.log.segments.isEmpty := by simp [hsegments]
  rw [cleanup, if_neg hsome, cleanupSealed_of_undated hsegments hcreated hgate]
  rfl

/-- A directory is opened only if every file in it is accepted as a segment, by the offset in its name.
    Where every name also tells a time of the calendar, the segments of the log do so after any actions,
    and no cleanup fails because of a name. -/
theorem dated_names_never_block {topic : String} {dir : Directory} {stored : StoredLog}
    (hopen : ofDirectory topic dir = .ok stored) :
    (∀ entry ∈ dir.files, ∃ segment, Segment.ofName entry.1 = .ok segment ∧
      SegmentName.offset entry.1 = .ok segment.offset) ∧
    ((∀ entry ∈ dir.files, ∃ created, SegmentName.created entry.1 = .ok created) →
      ∀ actions : List (Instant × LogAction),
        (∀ segment ∈ (stored.performAll actions).log.segments,
          ∃ created, segment.created = .ok created) ∧
        ∀ retain external now,
          Unblamed ((stored.performAll actions).cleanup retain now).1 ∧
            Unblamed ((stored.performAll actions).cleanupAll retain external now).1) := by
  obtain ⟨parts, hholds, rfl⟩ := ofDirectory_eq_ok_iff.mp hopen
  constructor
  · intro entry hentry
    rw [hholds.files] at hentry
    obtain ⟨part, hpart, rfl⟩ := List.mem_map.mp hentry
    have hname := hholds.named part hpart
    exact ⟨part.segment, Segment.ofName_eq_ok_iff.mpr ⟨rfl, hname⟩, hname⟩
  · intro hnames actions
    have hdated : StoredLog.Dated ⟨{
        topic
        segments := parts.map (·.segment)
        maxOffset := Part.stop parts % (Decimal.maxValue + 1) }, dir⟩ := by
      intro segment hsegment
      obtain ⟨part, hpart, rfl⟩ := List.mem_map.mp hsegment
      exact hnames part.entry (hholds.files ▸ List.mem_map_of_mem hpart)
    have hreached := hdated.performAll actions
    exact ⟨hreached, fun retain external now =>
      ⟨(hreached.cleanup retain now).1, (hreached.cleanupAll retain external now).1⟩⟩

/-- Two segments whose names tell times are cleaned up, also after a third one was begun. -/
theorem dated_names_never_block_two :
    let morning : Instant := ⟨1709967901, 0⟩
    let dir : Directory := ⟨.folder
      [("00000000000000000000.20240309070501", .file ⟨0, [1], morning⟩),
        ("00000000000000000001.20240309070501", .file ⟨1, [2], morning⟩)], 2⟩
    ∃ stored, ofDirectory "a" dir = .ok stored ∧
      (∀ entry ∈ dir.files, ∃ created, SegmentName.created entry.1 = .ok created) ∧
      Unblamed ((stored.performAll [(morning, .append [3] 0)]).cleanup 0 morning).1 := by
  intro morning dir
  have hopen : ofDirectory "a" dir = .ok
      { log := {
          topic := "a"
          segments := [⟨"00000000000000000000.20240309070501", 0⟩,
            ⟨"00000000000000000001.20240309070501", 1⟩]
          maxOffset := 2 }
        dir } := by
    decide +kernel
  have hcreated : SegmentName.created "00000000000000000000.20240309070501" = .ok morning ∧
      SegmentName.created "00000000000000000001.20240309070501" = .ok morning := by
    decide +kernel
  have hnames : ∀ entry ∈ dir.files, ∃ created, SegmentName.created entry.1 = .ok created := by
    intro entry hentry
    rcases List.mem_cons.mp hentry with rfl | hentry
    · exact ⟨morning, hcreated.1⟩
    · obtain rfl := List.mem_singleton.mp hentry
      exact ⟨morning, hcreated.2⟩
  obtain ⟨-, hfree⟩ := dated_names_never_block hopen
  exact ⟨_, hopen, hnames, ((hfree hnames [(morning, .append [3] 0)]).2 0 0 morning).1⟩

/-- A thirteenth month is accepted when a directory is opened. Its segment tells no time, and every
    cleanup of the log fails because of it and leaves it in place. -/
theorem thirteenth_month_blocks_cleanup :
    let name := "00000000000000000000.20241399000000"
    let dir : Directory := ⟨.folder [(name, .file ⟨0, [1], ⟨1709967901, 0⟩⟩),
      ("00000000000000000001.20200101000000", .file ⟨1, [2], ⟨1709967901, 0⟩⟩)], 2⟩
    ∃ stored, ofDirectory "t" dir = .ok stored ∧
      (∃ segment ∈ stored.log.segments, ∀ created, segment.created ≠ .ok created) ∧
      ∀ retain now, stored.cleanup retain now = (.error (.segmentName name .timeOutOfRange), stored) := by
  intro name dir
  have hopen : ofDirectory "t" dir = .ok
      { log := {
          topic := "t"
          segments := [⟨name, 0⟩, ⟨"00000000000000000001.20200101000000", 1⟩]
          maxOffset := 2 }
        dir } := by
    decide +kernel
  have hcreated : Segment.created ⟨name, 0⟩ = .error (.segmentName name .timeOutOfRange) := by
    decide +kernel
  refine ⟨_, hopen, ⟨⟨name, 0⟩, List.mem_cons_self, fun created hvalid => ?_⟩, fun retain now => ?_⟩
  · cases hcreated.symm.trans hvalid
  · exact cleanup_of_undated rfl hcreated (by decide) retain now

end StoredLog

end ReplicatedLog
