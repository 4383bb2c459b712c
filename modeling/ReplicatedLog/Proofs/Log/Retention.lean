import ReplicatedLog.Log.Retention
import ReplicatedLog.Proofs.Log.Layout

namespace ReplicatedLog

namespace TopicLog

/-- Segments were taken from the front of a log as long as the next one starts at or before `gate`,
    and the last one only if the log ends there. -/
inductive Cleaned (gate : Nat) : TopicLog → TopicLog → Prop
  | same (log : TopicLog) : Cleaned gate log log
  | oldest {log after : TopicLog} {oldest next : Segment} {rest : List Segment}
      (hsegments : log.segments = oldest :: next :: rest) (hgate : next.offset ≤ gate)
      (hrest : Cleaned gate { log with segments := next :: rest } after) : Cleaned gate log after
  | last {log : TopicLog} {last : Segment} (hsegments : log.segments = [last])
      (hgate : log.maxOffset ≤ gate) :
      Cleaned gate log { log with segments := [], active := none }

namespace Cleaned

variable {gate : Nat} {log middle after : TopicLog}

theorem trans (hfirst : log.Cleaned gate middle) (hsecond : middle.Cleaned gate after) :
    log.Cleaned gate after := by
  induction hfirst with
  | same => exact hsecond
  | oldest hsegments hgate _ ih => exact .oldest hsegments hgate (ih hsecond)
  | last hsegments hgate =>
    cases hsecond with
    | same => exact .last hsegments hgate
    | oldest hnone _ _ => cases hnone
    | last hnone _ => cases hnone

theorem maxOffset_eq (hcleaned : log.Cleaned gate after) : after.maxOffset = log.maxOffset := by
  induction hcleaned with
  | same => rfl
  | oldest _ _ _ ih => exact ih
  | last => rfl

theorem readers_eq (hcleaned : log.Cleaned gate after) : after.readers = log.readers := by
  induction hcleaned with
  | same => rfl
  | oldest _ _ _ ih => exact ih
  | last => rfl

/-- Nothing behind the gate is lost. -/
theorem firstOffset_le (hcleaned : log.Cleaned gate after) :
    after.firstOffset ≤ max log.firstOffset gate := by
  induction hcleaned with
  | same => exact le_max_left _ _
  | oldest hsegments hgate _ ih =>
    refine ih.trans (max_le ?_ (le_max_right _ _))
    exact le_max_of_le_right hgate
  | last _ hgate => exact le_max_of_le_right hgate

end Cleaned

end TopicLog

namespace StoredLog

variable {stored : StoredLog} {parts rest : List Part} {oldest next last : Part}

/-- What is left of a log after a cleanup: bytes are missing at its front only. -/
structure Kept (stored : StoredLog) (parts : List Part) (gate : Nat) (after : StoredLog) : Prop where
  cleaned : stored.log.Cleaned gate after.log
  nextId : after.dir.nextId = stored.dir.nextId
  laid : ∃ kept dropped, after.Laid kept ∧ Part.contents parts = dropped ++ Part.contents kept ∧
    after.log.firstOffset = stored.log.firstOffset + dropped.length

namespace Laid

theorem kept_self (hlaid : stored.Laid parts) (gate : Nat) : stored.Kept parts gate stored :=
  ⟨.same _, rfl, parts, [], hlaid, rfl, rfl⟩

theorem files_filter (hlaid : stored.Laid (oldest :: rest)) :
    stored.dir.files.filter (fun entry => entry.1 ≠ oldest.segment.name) =
      rest.map Part.entry := by
  have hascending := List.pairwise_cons.mp hlaid.chained.ascending
  rw [hlaid.files, List.map_cons, List.filter_cons_of_neg (by simp [Part.entry])]
  refine List.filter_eq_self.mpr fun entry hentry => ?_
  obtain ⟨part, hpart, rfl⟩ := List.mem_map.mp hentry
  have hne : part.segment.name ≠ oldest.segment.name := fun hname => by
    have heq := hlaid.eq_of_name_eq (List.mem_cons_of_mem _ hpart) List.mem_cons_self hname
    exact absurd (hascending.1 part hpart) (heq ▸ lt_irrefl _)
  simp [Part.entry, hne]

/-- Without its oldest segment a log starts at the next one. -/
theorem drop_oldest (hlaid : stored.Laid (oldest :: next :: rest)) {dir : Directory}
    (hdir : dir.Sound)
    (hfiles : dir.files = stored.dir.files.filter fun entry => entry.1 ≠ oldest.segment.name) :
    Laid { dir, log := { stored.log with segments := next.segment :: rest.map (·.segment) } }
      (next :: rest) := by
  obtain ⟨hoffset, hfull, hchained⟩ := hlaid.chained
  have hnext := hchained.1
  have hpositive := List.length_pos_iff.mpr (hfull (List.cons_ne_nil _ _))
  refine ⟨hdir, hfiles.trans hlaid.files_filter, rfl, ?_, ?_, hlaid.bounded, ?_⟩
  · exact fun part hpart => hlaid.named part (List.mem_cons_of_mem _ hpart)
  · rw [← hnext] at hchained
    exact hchained
  · intro opened hopened
    change _ ∨ ∃ start, _ ∧ start < next.segment.offset
    rcases hlaid.active opened hopened with ⟨part, hpart, hname, hid⟩ | ⟨start, hstart, hbefore⟩
    · rcases List.mem_cons.mp hpart with rfl | hpart
      · refine Or.inr ⟨part.segment.offset, ?_, by omega⟩
        rw [← hname]
        exact hlaid.named part List.mem_cons_self
      · exact Or.inl ⟨part, hpart, hname, hid⟩
    · exact Or.inr ⟨start, hstart, by omega⟩

theorem kept_oldest (hlaid : stored.Laid (oldest :: next :: rest)) {gate : Nat} {dir : Directory}
    {after : StoredLog} (hgate : next.segment.offset ≤ gate) (hid : dir.nextId = stored.dir.nextId)
    (hafter : Kept { dir, log := { stored.log with
      segments := next.segment :: rest.map (·.segment) } } (next :: rest) gate after) :
    stored.Kept (oldest :: next :: rest) gate after := by
  obtain ⟨hcleaned, hnextId, kept, dropped, hkept, hcontents, hfirst⟩ := hafter
  obtain ⟨-, -, hchained⟩ := hlaid.chained
  have hnext := hchained.1
  refine ⟨.oldest hlaid.segments hgate hcleaned, hnextId.trans hid, kept,
    oldest.file.bytes ++ dropped, hkept, ?_, ?_⟩
  · rw [Part.contents_cons, hcontents, List.append_assoc]
  · have hstart : after.log.firstOffset = next.segment.offset + dropped.length := hfirst
    rw [hstart, hnext, List.length_append, Nat.add_assoc]

/-- Cleaning up sealed segments succeeds or stops, but never harms what it leaves. -/
theorem cleanupSealed_spec (hlaid : stored.Laid parts) (retain gate : Nat) (now : Instant) :
    stored.Kept parts gate (stored.cleanupSealed retain gate now).2 := by
  induction parts generalizing stored with
  | nil =>
    have hsame : (stored.cleanupSealed retain gate now).2 = stored := by
      have hsegments : stored.log.segments = [] := hlaid.segments
      simp only [cleanupSealed, hsegments, dropSealed]
      rw [← hsegments]
    rw [hsame]
    exact hlaid.kept_self gate
  | cons oldest others ih =>
    cases others with
    | nil =>
      have hsame : (stored.cleanupSealed retain gate now).2 = stored := by
        have hsegments : stored.log.segments = [oldest.segment] := hlaid.segments
        simp only [cleanupSealed, hsegments, dropSealed]
        rw [← hsegments]
      rw [hsame]
      exact hlaid.kept_self gate
    | cons next rest =>
      have hself := hlaid.kept_self gate
      have hsegments : stored.log.segments =
          oldest.segment :: next.segment :: rest.map (·.segment) := hlaid.segments
      obtain ⟨dir, hdiscard, hdir, hfiles, hid⟩ := hlaid.sound.discard_of_mem
        (hlaid.named oldest List.mem_cons_self) (hlaid.mem_files List.mem_cons_self)
      have hdropped := hlaid.drop_oldest hdir hfiles
      unfold cleanupSealed
      rw [hsegments, dropSealed]
      by_cases hgate : gate < next.segment.offset
      · rw [if_pos hgate, ← hsegments]
        exact hself
      · rw [if_neg hgate]
        cases oldest.segment.created with
        | error fault =>
          simp only [← hsegments]
          exact hself
        | ok created =>
          by_cases hyoung : now.age created < retain
          · simp only [if_pos hyoung, ← hsegments]
            exact hself
          · simp only [if_neg hyoung, hdiscard]
            exact hlaid.kept_oldest (not_lt.mp hgate) hid (ih hdropped)

/-- Removing the directory of a log without segments leaves the log as it is. -/
theorem removeDirectory_spec (hlaid : stored.Laid []) :
    stored.removeDirectory.2.log = stored.log ∧ stored.removeDirectory.2.Laid [] ∧
      stored.removeDirectory.2.dir.nextId = stored.dir.nextId := by
  unfold removeDirectory
  cases hremove : stored.dir.discardEmpty with
  | error fault => exact ⟨rfl, hlaid, rfl⟩
  | ok dir =>
    obtain ⟨hdir, hfiles, hnone, hid⟩ := hlaid.sound.discardEmpty_spec hremove
    exact ⟨rfl, hlaid.of_files_eq hdir (hfiles.trans hnone.symm), hid⟩

theorem kept_removeDirectory (hlaid : stored.Laid []) (gate : Nat) :
    stored.Kept [] gate stored.removeDirectory.2 := by
  obtain ⟨hlog, hempty, hid⟩ := hlaid.removeDirectory_spec
  exact ⟨hlog ▸ .same _, hid, [], [], hempty, rfl, by rw [hlog]; rfl⟩

/-- A log that lost its last segment ends where it ended. -/
theorem drop_last (hlaid : stored.Laid [last]) {dir : Directory} (hdir : dir.Sound)
    (hfiles : dir.files = stored.dir.files.filter fun entry => entry.1 ≠ last.segment.name) :
    Laid { dir, log := { stored.log with segments := [], active := none } } [] :=
  ⟨hdir, hfiles.trans hlaid.files_filter, rfl, by simp, rfl, hlaid.bounded,
    fun opened hopened => by cases hopened⟩

theorem dropLast_spec (hlaid : stored.Laid [last]) {gate : Nat} (retain : Nat) (now : Instant)
    (hgate : stored.log.maxOffset ≤ gate) :
    stored.Kept [last] gate (stored.dropLast last.segment retain now).2 := by
  have hname := hlaid.named last List.mem_cons_self
  have hfile := hlaid.mem_files (List.mem_cons_self (a := last) (l := []))
  obtain ⟨dir, hdiscard, hdir, hfiles, hid⟩ := hlaid.sound.discard_of_mem hname hfile
  have hself := hlaid.kept_self gate
  unfold dropLast
  simp only [hlaid.sound.file_of_mem hname hfile]
  by_cases hyoung : now.nanosSince last.file.modified < retain
  · rw [if_pos hyoung]
    exact hself
  · simp only [if_neg hyoung, hdiscard]
    obtain ⟨hlog, hempty, hremoved⟩ := (hlaid.drop_last hdir hfiles).removeDirectory_spec
    have hsegments : stored.log.segments = [last.segment] := hlaid.segments
    refine ⟨?_, hremoved.trans hid, [], last.file.bytes, hempty, by simp, ?_⟩
    · rw [hlog]
      exact .last hsegments hgate
    · rw [hlog]
      obtain ⟨-, -, hstop⟩ := hlaid.chained
      exact hstop.symm

theorem isEmpty_segments (hlaid : stored.Laid parts) :
    stored.log.segments.isEmpty = parts.isEmpty := by
  rw [hlaid.segments, List.isEmpty_map]

/-- A cleanup takes only what every reader has passed. -/
theorem cleanup_spec (hlaid : stored.Laid parts) (retain : Nat) (now : Instant) :
    stored.Kept parts stored.log.gate (stored.cleanup retain now).2 := by
  unfold cleanup
  rw [hlaid.isEmpty_segments]
  cases parts with
  | nil =>
    rw [List.isEmpty_nil, if_pos rfl]
    exact hlaid.kept_removeDirectory _
  | cons oldest rest => exact hlaid.cleanupSealed_spec retain _ now

theorem Kept.trans {after last : StoredLog} {gate : Nat} (hfirst : stored.Kept parts gate after)
    (hsecond : ∀ kept, after.Laid kept → after.Kept kept gate last) :
    stored.Kept parts gate last := by
  obtain ⟨hcleaned, hid, kept, dropped, hkept, hcontents, hstart⟩ := hfirst
  obtain ⟨hmore, hsame, left, gone, hleft, hothers, hend⟩ := hsecond kept hkept
  refine ⟨hcleaned.trans hmore, hsame.trans hid, left, dropped ++ gone, hleft, ?_, ?_⟩
  · rw [hcontents, hothers, List.append_assoc]
  · rw [hend, hstart, List.length_append, Nat.add_assoc]

/-- A cleanup that may take the last segment waits for readers and for `external`. -/
theorem cleanupAll_spec (hlaid : stored.Laid parts) (retain external : Nat) (now : Instant) :
    stored.Kept parts (min stored.log.gate external) (stored.cleanupAll retain external now).2 := by
  unfold cleanupAll
  rw [hlaid.isEmpty_segments]
  cases parts with
  | nil =>
    rw [List.isEmpty_nil, if_pos rfl]
    exact hlaid.kept_removeDirectory _
  | cons oldest rest =>
    have hsealed := hlaid.cleanupSealed_spec retain (min stored.log.gate external) now
    rcases hclean : stored.cleanupSealed retain (min stored.log.gate external) now with
      ⟨outcome, after⟩
    replace hsealed : stored.Kept (oldest :: rest) (min stored.log.gate external) after := by
      simpa only [hclean] using hsealed
    simp only [List.isEmpty_cons, Bool.false_eq_true, if_false, hclean]
    cases outcome with
    | error fault => exact hsealed
    | ok _ =>
      refine Kept.trans hsealed fun kept hkept => ?_
      have hself := hkept.kept_self (min stored.log.gate external)
      rcases kept with _ | ⟨last, _ | ⟨next, others⟩⟩
      · simp only [hkept.segments, List.map_nil]
        exact hself
      · simp only [hkept.segments, List.map_cons, List.map_nil]
        by_cases hgate : min stored.log.gate external < after.log.maxOffset
        · rw [if_pos hgate]
          exact hself
        · rw [if_neg hgate]
          exact hkept.dropLast_spec retain now (not_lt.mp hgate)
      · simp only [hkept.segments, List.map_cons]
        exact hself

end Laid

theorem segments_dropSealed_ne_nil (retain gate : Nat) (now : Instant) {segments : List Segment}
    (dir : Directory) (hsegments : segments ≠ []) :
    (dropSealed retain gate now segments dir).2.1 ≠ [] := by
  fun_induction dropSealed retain gate now segments dir with
  | case5 dir oldest next rest _ _ _ _ _ _ ih => exact ih (List.cons_ne_nil _ _)
  | _ => exact hsegments

/-- A cleanup leaves the last segment. -/
theorem segments_cleanup_ne_nil (hsegments : stored.log.segments ≠ []) (retain : Nat)
    (now : Instant) : (stored.cleanup retain now).2.log.segments ≠ [] := by
  unfold cleanup
  rw [if_neg (by simpa using hsegments)]
  exact segments_dropSealed_ne_nil retain stored.log.gate now stored.dir hsegments

/-- What is said to be safe beyond the end of a log is not more than all of it. -/
theorem cleanupAll_min (hgate : stored.log.gate ≤ stored.log.maxOffset) (retain external : Nat)
    (now : Instant) :
    stored.cleanupAll retain (min external stored.log.maxOffset) now =
      stored.cleanupAll retain external now := by
  have hsame : min stored.log.gate (min external stored.log.maxOffset) =
      min stored.log.gate external := by omega
  simp only [cleanupAll, hsame]

end StoredLog

end ReplicatedLog
