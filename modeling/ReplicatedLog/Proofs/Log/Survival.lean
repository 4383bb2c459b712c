import ReplicatedLog.Proofs.Log.Discerning

namespace ReplicatedLog

/-- The action makes the first segment of a log that has none, where the log ends. -/
def LogAction.Restarts (log : TopicLog) : LogAction → Prop
  | .append _ _ | .roll => log.segments = []
  | .appendAt offset data _ => log.segments = [] ∧ offset = log.maxOffset ∧ data ≠ []
  | _ => False

/-- Whatever lies within the log can be asked of the cursor. -/
structure Cursor.Usable (cursor : Cursor) (stored : StoredLog) : Prop where
  hasMore : ∃ moved, cursor.hasMore stored.log.topic stored.dir =
    (.ok (decide (cursor.offset < stored.log.maxOffset)), moved)
  nextRegion : ∀ limit, ∃ region? moved,
    cursor.nextRegion stored.log.topic stored.dir limit = (.ok region?, moved) ∧
      (region? = none ↔ cursor.offset = stored.log.maxOffset)
  consume : ∀ length, length ≤ stored.log.maxOffset - cursor.offset → ∃ moved,
    cursor.consume stored.log.topic stored.dir length = (.ok (), moved) ∧
      moved.offset = cursor.offset + length
  seek : ∃ moved, Cursor.place stored.log.segments stored.log.maxOffset cursor.offset = .ok moved ∧
    moved.offset = cursor.offset

/-- Where the next segment is needed and cannot be entered, nothing is told. -/
theorem Cursor.hasMore_of_nextSegment {topic : String} {dir : Directory} {cursor moved : Cursor}
    {fault : Fault} (hdone : cursor.available = 0) (hlong : 1 < cursor.segments.length)
    (hnext : cursor.nextSegment topic dir = (.error fault, moved)) :
    cursor.hasMore topic dir = (.error fault, moved) := by
  rw [Cursor.hasMore, if_neg (by omega), dif_neg (by omega)]
  split
  next hother =>
    rw [hnext] at hother
    obtain ⟨hfault, rfl⟩ := Prod.mk.inj hother
    rw [Except.error.inj hfault]
  next hother =>
    rw [hnext] at hother
    cases hother

theorem Cursor.Discerns.usable {cursor : Cursor} {stored : StoredLog} {parts : List Part}
    (hdiscerns : cursor.Discerns stored.log) (hlaid : stored.Laid parts) : cursor.Usable stored where
  hasMore := by
    obtain ⟨more, moved, hmore, -, -, -, hsome, hend, -⟩ := hdiscerns.hasMore hlaid stored.log.topic
    have hsame : more = decide (cursor.offset < stored.log.maxOffset) := by
      rw [Bool.eq_iff_iff, decide_eq_true_iff]
      exact hsome.trans hend
    exact ⟨moved, hsame ▸ hmore⟩
  nextRegion limit := by
    obtain ⟨region?, moved, hnext, -, -, -, hnone, -⟩ :=
      hdiscerns.nextRegion hlaid stored.log.topic limit
    exact ⟨region?, moved, hnext, hnone⟩
  consume length hlength := by
    have hbound := hdiscerns.follows.offset_le hlaid.ordered
    have hinside : cursor.offset + length ≤ stored.log.maxOffset := by omega
    obtain ⟨moved, hconsume, -, hoffset, -⟩ := hdiscerns.consume hlaid hinside stored.log.topic
    exact ⟨moved, hconsume, hoffset⟩
  seek := by
    obtain ⟨moved, hplace⟩ := Cursor.exists_place (hdiscerns.follows.firstOffset_le hlaid.ordered)
      (hdiscerns.follows.offset_le hlaid.ordered)
    exact ⟨moved, hplace, (Cursor.follows_of_place hplace).2⟩

namespace TopicLog

variable {log wide after : TopicLog} {now : Instant}

/-- Every registered reader tells the segments of the log from those that are gone. -/
def Discerned (log : TopicLog) : Prop :=
  ∀ reader ∈ log.readers, reader.cursor.Discerns log

/-- A segment made now at the end of the log gets a name that no registered reader knows. -/
def Fresh (log : TopicLog) (now : Instant) : Prop :=
  ∀ reader ∈ log.readers, ∀ known ∈ reader.cursor.segments,
    known.name ≠ SegmentName.encode log.maxOffset now

/-- Among readers of one identity the registered ones come first. -/
theorem mem_readers_of_reader? {id : Nat} {reader old : Reader} (hreader : log.reader? id = some reader)
    (hmem : old ∈ log.readers) (hid : old.id = id) : reader ∈ log.readers := by
  rw [reader?, List.find?_append] at hreader
  cases hfind : log.readers.find? fun reader => reader.id = id with
  | none => simpa [hid] using List.find?_eq_none.mp hfind old hmem
  | some found =>
    rw [hfind, Option.some_or, Option.some.injEq] at hreader
    exact hreader ▸ List.mem_of_find?_eq_some hfind

namespace Discerned

theorem congr (hdiscerned : log.Discerned) (hreaders : ∀ reader ∈ after.readers, reader ∈ log.readers)
    (hsegments : after.segments = log.segments) (hend : after.maxOffset = log.maxOffset) :
    after.Discerned :=
  fun reader hmem => (hdiscerned reader (hreaders reader hmem)).congr hsegments hend

theorem mapCursors (hdiscerned : log.Discerned) {change : Cursor → Cursor}
    (hchange : ∀ reader ∈ log.readers, reader.cursor.Discerns log →
      (change reader.cursor).Discerns after)
    (hreaders : after.readers = (log.mapCursors change).readers) : after.Discerned := by
  intro reader hmem
  rw [hreaders] at hmem
  obtain ⟨old, hold, rfl⟩ := List.mem_map.mp hmem
  exact hchange old hold (hdiscerned old hold)

/-- A segment at the end of a log that has others starts behind all that is gone, so only the first
    segment of a log can come back under a name that some reader knows. -/
theorem widened (hdiscerned : log.Discerned) (hordered : log.Ordered)
    (hbounded : log.maxOffset ≤ Decimal.maxValue) (hnow : now.InCalendar)
    (hwide : log.Widened wide)
    (hascending : wide.segments.Pairwise fun segment next => segment.offset < next.offset)
    (hnamed : ∀ segment ∈ wide.segments,
      segment ∈ log.segments ∨ segment.name = SegmentName.encode log.maxOffset now)
    (hfresh : log.segments = [] → log.Fresh now) : wide.Discerned := by
  cases hwide with
  | same => exact hdiscerned
  | added segment hoffset =>
    have hlast : ∀ other ∈ log.segments, other.offset < segment.offset := fun other hmem =>
      (List.pairwise_append.mp hascending).2.2 other hmem segment List.mem_cons_self
    have hname : segment.name = SegmentName.encode log.maxOffset now :=
      (hnamed segment (List.mem_append_right _ List.mem_cons_self)).resolve_left fun hmem =>
        lt_irrefl _ (hlast segment hmem)
    refine hdiscerned.mapCursors (fun reader hreader hdiscerns => ?_) rfl
    refine hdiscerns.addSegment hoffset fun known hknown hgone => ?_
    rw [hname]
    by_cases hnil : log.segments = []
    · exact hfresh hnil reader hreader known hknown
    · obtain ⟨first, rest, hsegments⟩ := List.exists_cons_of_ne_nil hnil
      have hbefore := hdiscerns.of_not_mem hknown hgone
      rw [firstOffset_of_cons hsegments] at hbefore
      have hbehind := hlast first (hsegments ▸ List.mem_cons_self)
      intro hsame
      have hknownName := hdiscerns.follows.named hordered hknown
      rw [hsame, SegmentName.offset_encode hbounded hnow] at hknownName
      have hend := Except.ok.inj hknownName
      omega

theorem grown {length : Nat} (hdiscerned : log.Discerned) (hordered : log.Ordered)
    (hbounded : log.maxOffset ≤ Decimal.maxValue) (hnow : now.InCalendar)
    (hgrown : log.Grown length after) (hafter : after.Ordered)
    (hnamed : ∀ segment ∈ after.segments,
      segment ∈ log.segments ∨ segment.name = SegmentName.encode log.maxOffset now)
    (hfresh : log.segments = [] → log.Fresh now) : after.Discerned := by
  obtain ⟨wide, active, hwide, hsegments⟩ := hgrown
  have hwidened := hdiscerned.widened hordered hbounded hnow hwide hafter.ascending hnamed hfresh
  exact hwidened.mapCursors
    (fun _ _ hdiscerns => (hdiscerns.addBytes hsegments length).congr rfl rfl) rfl

theorem cleaned (hdiscerned : log.Discerned) (hordered : log.Ordered) {gate : Nat}
    (hcleaned : log.Cleaned gate after) (hgate : gate ≤ log.gate) : after.Discerned := by
  intro reader hmem
  rw [hcleaned.readers_eq] at hmem
  exact (hdiscerned reader hmem).cleaned hordered hcleaned (hgate.trans (gate_le_of_mem hmem))

theorem addReader (hdiscerned : log.Discerned) {name : String} {offset : Nat} {added : Nat × TopicLog}
    (hadd : log.addReader name offset = .ok added) : added.2.Discerned := by
  obtain ⟨cursor, hplace, rfl⟩ := addReader_eq_ok hadd
  intro reader hmem
  rcases List.mem_append.mp hmem with hold | hnew
  · exact (hdiscerned reader hold).congr rfl rfl
  · rw [List.mem_singleton.mp hnew]
    exact (Cursor.Discerns.of_place hplace).1.congr rfl rfl

/-- Readers that are moved to the start of a log know its only segment. -/
theorem startedAt (log : TopicLog) (segment : Segment) : (log.startedAt segment).Discerned := by
  intro reader hmem
  obtain ⟨old, -, rfl⟩ := List.mem_map.mp hmem
  refine ⟨?_, [], [segment], rfl, List.suffix_rfl, by simp⟩
  exact .reading [] segment [] rfl rfl rfl rfl le_rfl rfl

end Discerned

end TopicLog

namespace StoredLog

variable {start opened stored after : StoredLog} {parts : List Part} {now : Instant}

/-- One log comes from another by actions that make no segment under the name of a deleted one that
    a registered reader still knows. A name comes back only where a log that lost its last segment
    within the second in which that was made gets one again at once. -/
inductive Proceeds (start : StoredLog) : StoredLog → Prop
  | refl : Proceeds start start
  | step {stored : StoredLog} (hproceeds : Proceeds start stored) (now : Instant)
      (action : LogAction) (hnow : now.InCalendar) (hfits : stored.Fits action)
      (hfresh : action.Restarts stored.log → stored.log.Fresh now) :
      Proceeds start (stored.perform now action)

theorem Proceeds.reaches (hproceeds : Proceeds start stored) : Reaches start stored := by
  induction hproceeds with
  | refl => exact .refl
  | step _ now action hnow hfits _ ih => exact .step ih now action hnow hfits

theorem name_of_createSegment {dir made : Directory} {offset : Nat} {segment : Segment}
    (hcreate : createSegment dir offset now = (.ok segment, made)) :
    segment.name = SegmentName.encode offset now := by
  unfold createSegment at hcreate
  dsimp only at hcreate
  split at hcreate
  · cases hcreate
  · exact (Segment.ofName_eq_ok_iff.mp (Prod.mk.inj hcreate).1).1

theorem mem_segments_roll {segment : Segment} (hmem : segment ∈ (stored.roll now).2.log.segments) :
    segment ∈ stored.log.segments ∨
      segment.name = SegmentName.encode stored.log.maxOffset now := by
  unfold roll at hmem
  split at hmem
  · exact Or.inl hmem
  · split at hmem
    · exact Or.inl hmem
    · exact Or.inl hmem
    · split at hmem
      · exact Or.inl hmem
      next added _ hcreate =>
        rcases List.mem_append.mp hmem with hold | hnew
        · exact Or.inl hold
        · exact Or.inr (List.mem_singleton.mp hnew ▸ name_of_createSegment hcreate)

theorem mem_segments_activeSegment {segment : Segment} {rollSize : Nat}
    (hmem : segment ∈ (stored.activeSegment rollSize now).2.log.segments) :
    segment ∈ stored.log.segments ∨
      segment.name = SegmentName.encode stored.log.maxOffset now := by
  unfold activeSegment at hmem
  split at hmem
  · exact mem_segments_roll hmem
  · split at hmem
    · exact Or.inl hmem
    · split at hmem
      · exact Or.inl hmem
      · exact mem_segments_roll hmem

theorem segments_openSegment {segment : Segment} {file : Nat}
    (hopen : stored.openSegment segment now = .ok (file, after)) :
    after.log.segments = stored.log.segments := by
  unfold openSegment at hopen
  split at hopen
  · cases hopen
    rfl
  · split at hopen <;> cases hopen
    rfl

theorem mem_segments_append {segment : Segment} {data : Bytes} {rollSize : Nat}
    (hmem : segment ∈ (stored.append data rollSize now).2.log.segments) :
    segment ∈ stored.log.segments ∨
      segment.name = SegmentName.encode stored.log.maxOffset now := by
  suffices hactive : segment ∈ (stored.activeSegment rollSize now).2.log.segments from
    mem_segments_activeSegment hactive
  unfold append at hmem
  split at hmem
  next hactive =>
    rw [hactive]
    exact hmem
  next hactive =>
    rw [hactive]
    split at hmem
    · exact hmem
    next hopen => exact segments_openSegment hopen ▸ hmem

theorem discerned_onReader {α : Type} (hdiscerned : stored.log.Discerned) (id : Nat)
    {work : String → Directory → Cursor → Except Fault α × Cursor}
    (hwork : ∀ cursor, cursor.Discerns stored.log →
      (work stored.log.topic stored.dir cursor).2.Discerns stored.log) :
    (stored.onReader id work).2.log.Discerned := by
  unfold onReader
  cases hreader : stored.log.reader? id with
  | none => exact hdiscerned
  | some reader =>
    intro changed hmem
    obtain ⟨old, hold, rfl⟩ := List.mem_map.mp hmem
    by_cases hid : old.id = id
    · rw [if_pos hid]
      have hfound := TopicLog.mem_readers_of_reader? hreader hold hid
      exact (hwork reader.cursor (hdiscerned reader hfound)).congr rfl rfl
    · rw [if_neg hid]
      exact (hdiscerned old hold).congr rfl rfl

namespace Laid

theorem discerned_append (hlaid : stored.Laid parts) (hdiscerned : stored.log.Discerned)
    (hnow : now.InCalendar) (data : Bytes) (rollSize : Nat)
    (hfits : stored.log.maxOffset + data.length ≤ Decimal.maxValue)
    (hfresh : stored.log.segments = [] → stored.log.Fresh now) :
    (stored.append data rollSize now).2.log.Discerned := by
  obtain ⟨after, grown, happend, hafter, -, hgrown, -⟩ := hlaid.append_spec data rollSize hnow hfits
  have hsame : (stored.append data rollSize now).2 = after := congrArg Prod.snd happend
  rw [hsame]
  refine hdiscerned.grown hlaid.ordered hlaid.bounded hnow hgrown hafter.ordered ?_ hfresh
  intro segment hmem
  rw [← hsame] at hmem
  exact mem_segments_append hmem

/-- Bytes that are offered at another offset leave the log as it is, and so does nothing at its end. -/
theorem discerned_appendAt (hlaid : stored.Laid parts) (hdiscerned : stored.log.Discerned)
    (hnow : now.InCalendar) (offset : Nat) (data : Bytes) (rollSize : Nat)
    (hfits : offset = stored.log.maxOffset → offset + data.length ≤ Decimal.maxValue)
    (hfresh : stored.log.segments = [] ∧ offset = stored.log.maxOffset ∧ data ≠ [] →
      stored.log.Fresh now) :
    (stored.appendAt offset data rollSize now).2.log.Discerned := by
  unfold appendAt
  by_cases hoffset : offset = stored.log.maxOffset
  · rw [if_neg (not_not.mpr hoffset)]
    by_cases hdata : data = []
    · rw [if_pos (List.isEmpty_iff.mpr hdata)]
      exact hdiscerned
    · rw [if_neg (mt List.isEmpty_iff.mp hdata)]
      exact hlaid.discerned_append hdiscerned hnow data rollSize (hoffset ▸ hfits hoffset)
        fun hnil => hfresh ⟨hnil, hoffset, hdata⟩
  · rw [if_pos hoffset]
    exact hdiscerned

theorem discerned_roll (hlaid : stored.Laid parts) (hdiscerned : stored.log.Discerned)
    (hnow : now.InCalendar) (hfresh : stored.log.segments = [] → stored.log.Fresh now) :
    (stored.roll now).2.log.Discerned := by
  obtain ⟨front, last, after, hroll, hafter, -, -, hwide, -⟩ := hlaid.roll_spec hnow
  have hsame : (stored.roll now).2 = after := congrArg Prod.snd hroll
  rw [hsame]
  refine hdiscerned.widened hlaid.ordered hlaid.bounded hnow hwide hafter.ordered.ascending ?_ hfresh
  intro segment hmem
  rw [← hsame] at hmem
  exact mem_segments_roll hmem

/-- A log without segments that starts again further on takes its readers along. -/
theorem discerned_resumeAt (hlaid : stored.Laid parts) (hdiscerned : stored.log.Discerned)
    (hnow : now.InCalendar) {offset : Nat} (hoffset : offset ≤ Decimal.maxValue) :
    (stored.resumeAt offset now).2.log.Discerned := by
  by_cases hskip : stored.log.segments ≠ [] ∨ offset ≤ stored.log.maxOffset
  · rw [resumeAt, if_pos hskip]
    exact hdiscerned
  · obtain ⟨hempty, hlt⟩ := not_or.mp hskip
    obtain rfl : parts = [] := List.map_eq_nil_iff.mp (hlaid.segments ▸ not_not.mp hempty)
    obtain ⟨part, dir, hresume, -⟩ := hlaid.resumeAt_of_lt hnow hoffset (not_le.mp hlt)
    rw [hresume]
    exact .startedAt stored.log part.segment

/-- Each action leaves every registered reader with a cursor that tells what is gone. -/
theorem discerned_perform (hlaid : stored.Laid parts) (hdiscerned : stored.log.Discerned)
    (hnow : now.InCalendar) (action : LogAction) (hfits : stored.Fits action)
    (hfresh : action.Restarts stored.log → stored.log.Fresh now) :
    (stored.perform now action).log.Discerned := by
  cases action with
  | append data rollSize => exact hlaid.discerned_append hdiscerned hnow data rollSize hfits hfresh
  | appendAt offset data rollSize =>
    exact hlaid.discerned_appendAt hdiscerned hnow offset data rollSize hfits hfresh
  | roll => exact hlaid.discerned_roll hdiscerned hnow hfresh
  | resumeAt offset => exact hlaid.discerned_resumeAt hdiscerned hnow hfits
  | cleanup retain =>
    exact hdiscerned.cleaned hlaid.ordered (hlaid.cleanup_spec retain now).cleaned le_rfl
  | cleanupAll retain external =>
    exact hdiscerned.cleaned hlaid.ordered (hlaid.cleanupAll_spec retain external now).cleaned
      (min_le_left _ _)
  | addReader name offset =>
    cases hadd : stored.log.addReader name offset with
    | error fault => simpa only [perform, hadd] using hdiscerned
    | ok added => simpa only [perform, hadd] using hdiscerned.addReader hadd
  | removeReader id =>
    exact hdiscerned.congr (fun reader hmem => (List.mem_filter.mp hmem).1) rfl rfl
  | hasMore id =>
    refine discerned_onReader hdiscerned id fun cursor hdiscerns => ?_
    obtain ⟨more, moved, hmore, hmoved, -⟩ := hdiscerns.hasMore hlaid stored.log.topic
    rw [hmore]
    exact hmoved
  | nextRegion id limit =>
    refine discerned_onReader hdiscerned id fun cursor hdiscerns => ?_
    obtain ⟨region?, moved, hnext, hmoved, -⟩ := hdiscerns.nextRegion hlaid stored.log.topic limit
    rw [hnext]
    exact hmoved
  | consume id length =>
    refine discerned_onReader hdiscerned id fun cursor hdiscerns => ?_
    by_cases hlength : cursor.offset + length ≤ stored.log.maxOffset
    · obtain ⟨moved, hconsume, hmoved, -⟩ := hdiscerns.consume hlaid hlength stored.log.topic
      rw [hconsume]
      exact hmoved
    · have hmax := hdiscerns.follows.maxOffset_eq
      unfold Cursor.consume
      rw [if_pos (by omega)]
      exact hdiscerns
  | seek id offset =>
    refine discerned_onReader hdiscerned id fun cursor hdiscerns => ?_
    cases hplace : Cursor.place stored.log.segments stored.log.maxOffset offset with
    | error fault => exact hdiscerns
    | ok moved => exact (Cursor.Discerns.of_place hplace).1

end Laid

theorem Proceeds.discerned (hproceeds : Proceeds start stored) (hlaid : start.Laid parts)
    (hdiscerned : start.log.Discerned) : stored.log.Discerned := by
  induction hproceeds with
  | refl => exact hdiscerned
  | step hproceeds now action hnow hfits hfresh ih =>
    obtain ⟨others, hothers, -⟩ := hproceeds.reaches.laid hlaid
    exact hothers.discerned_perform ih hnow action hfits hfresh

/-- Whatever is done with a log after it was opened, full cleanups included, all its registered
    readers stay usable, if a log that lost its last segment gets no other one under the name that a
    reader still knows. -/
theorem Proceeds.usable_of_open {topic : String} {dir : Directory} (hdir : dir.Sound)
    (hopen : ofDirectory topic dir = .ok opened) (hcontiguous : opened.Contiguous)
    (hbounded : opened.Bounded) (hproceeds : Proceeds opened stored) :
    ∀ reader ∈ stored.log.readers, reader.cursor.Usable stored := by
  obtain ⟨parts, hparts⟩ := Laid.of_open hdir hopen hcontiguous hbounded
  obtain ⟨others, hlaid, -⟩ := hproceeds.reaches.laid hparts
  have hdiscerned : opened.log.Discerned := by
    unfold TopicLog.Discerned
    rw [readers_of_ofDirectory hopen]
    exact nofun
  exact fun reader hmem => (hproceeds.discerned hparts hdiscerned reader hmem).usable hlaid

/-- A reader of a log that is cleaned up whole and goes on a second later. -/
theorem usable_after_later_restart :
    let opened : StoredLog := ⟨{ topic := "t" }, {}⟩
    let full := (opened.perform ⟨0, 0⟩ .roll).perform ⟨0, 0⟩ (.addReader "r" 0)
    let stored := (full.perform ⟨0, 0⟩ (.cleanupAll 0 0)).perform ⟨1, 0⟩ (.append [1] 1)
    ∃ reader, stored.log.readers = [reader] ∧ reader.cursor.Usable stored := by
  intro opened full stored
  have hdir : opened.dir.Sound := .missing
  have hopen : ofDirectory "t" opened.dir = .ok opened := rfl
  have hcontiguous : opened.Contiguous := ⟨List.Pairwise.nil, List.IsChain.nil⟩
  have hrolled : Proceeds opened full :=
    .step (.step .refl ⟨0, 0⟩ .roll (by decide) trivial fun _ => by unfold TopicLog.Fresh; decide)
      ⟨0, 0⟩ (.addReader "r" 0) (by decide) trivial nofun
  have hstored : Proceeds opened stored :=
    .step (.step hrolled ⟨0, 0⟩ (.cleanupAll 0 0) (by decide) trivial nofun) ⟨1, 0⟩ (.append [1] 1)
      (by decide) (by unfold Fits; decide +kernel)
      fun _ => by unfold TopicLog.Fresh; decide +kernel
  have hone : stored.log.readers.length = 1 := by decide +kernel
  obtain ⟨reader, hreader⟩ := List.length_eq_one_iff.mp hone
  have husable := hstored.usable_of_open hdir hopen hcontiguous (bounded_of_nil rfl)
  exact ⟨reader, hreader, husable reader (hreader ▸ List.mem_cons_self)⟩

/-- Within one second the segment comes back under its name, and the reader takes the new file for
    the one that is gone. -/
theorem unusable_after_prompt_restart :
    let opened : StoredLog := ⟨{ topic := "t" }, {}⟩
    let full := (opened.perform ⟨0, 0⟩ .roll).perform ⟨0, 0⟩ (.addReader "r" 0)
    let stored := (full.perform ⟨0, 0⟩ (.cleanupAll 0 0)).perform ⟨0, 0⟩ (.append [1] 1)
    opened.dir.Sound ∧ ofDirectory "t" opened.dir = .ok opened ∧ opened.Contiguous ∧
      Reaches opened stored ∧ ∃ reader ∈ stored.log.readers, ∃ gap moved,
        reader.cursor.hasMore "t" stored.dir = (.error (.discontinuity gap), moved) := by
  intro opened full stored
  have hdir : opened.dir.Sound := .missing
  have hstored : Reaches opened stored :=
    .step (.step (.step (.step .refl ⟨0, 0⟩ .roll (by decide) trivial) ⟨0, 0⟩ (.addReader "r" 0)
      (by decide) trivial) ⟨0, 0⟩ (.cleanupAll 0 0) (by decide) trivial) ⟨0, 0⟩ (.append [1] 1)
      (by decide) (by unfold Fits; decide +kernel)
  let segment : Segment := ⟨SegmentName.encode 0 ⟨0, 0⟩, 0⟩
  let cursor : Cursor := { segments := [segment, segment], maxOffset := 1 }
  have hreader : ⟨0, "r", cursor⟩ ∈ stored.log.readers := by decide +kernel
  have hnext : cursor.nextSegment "t" stored.dir =
      (.error (.discontinuity (.size "t" segment.name 1 segment.name 0)),
        { cursor with segments := [segment] }) := by decide +kernel
  have hmore := Cursor.hasMore_of_nextSegment rfl (by decide) hnext
  exact ⟨hdir, rfl, ⟨List.Pairwise.nil, List.IsChain.nil⟩, hstored, _, hreader, _, _, hmore⟩

end StoredLog

end ReplicatedLog
