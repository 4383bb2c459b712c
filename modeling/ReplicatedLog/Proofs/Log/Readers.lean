import ReplicatedLog.Proofs.Log.Reading
import ReplicatedLog.Proofs.Log.Run

namespace ReplicatedLog

variable {log after : TopicLog} {id : Nat} {halted : Bool} {cursor moved : Cursor}

/-- Only the segments and the end of a log matter to its cursors. -/
theorem Cursor.Follows.congr (hfollows : cursor.Follows log)
    (hsegments : after.segments = log.segments) (hend : after.maxOffset = log.maxOffset) :
    cursor.Follows after := by
  have hfirst : after.firstOffset = log.firstOffset := by
    unfold TopicLog.firstOffset
    rw [hsegments, hend]
  cases hfollows with
  | reading passed current rest hsplit hcursor hposition hboundary hoffset hmax =>
    exact .reading passed current rest (hsegments.trans hsplit) hcursor hposition
      (hend ▸ hboundary) hoffset (hmax.trans hend.symm)
  | waiting gone hcursor hoffset hgone hnamed hnone hboundary hmax =>
    exact .waiting gone (hsegments ▸ hcursor) (hoffset.trans hfirst.symm) hgone hnamed
      (hsegments ▸ hnone) hboundary (hmax.trans hend.symm)

theorem Cursor.Follows.available_le_addBytes (hfollows : cursor.Follows log) (length : Nat) :
    cursor.available ≤ (cursor.addBytes length).available := by
  have hend : cursor.segments.length ≤ 1 → cursor.boundary ≤ cursor.maxOffset ∨
      cursor.available = 0 := by
    intro hshort
    cases hfollows with
    | reading passed current rest hsegments hcursor hposition hboundary hoffset hmax =>
      cases rest with
      | nil => exact Or.inl (hboundary.trans hmax.symm).le
      | cons next others => simp [hcursor] at hshort
    | waiting gone hcursor hoffset hgone hnamed hnone hboundary hmax =>
      refine Or.inr ?_
      unfold available
      split <;> omega
  by_cases hshort : cursor.segments.length ≤ 1
  · rcases hend hshort with hle | hzero
    · simp only [available, Cursor.addBytes, if_pos hshort]
      split <;> omega
    · omega
  · simp [available, Cursor.addBytes, hshort]

theorem Cursor.Follows.available_le_addSegment (hfollows : cursor.Follows log) {segment : Segment}
    (hoffset : segment.offset = log.maxOffset) :
    cursor.available ≤ (cursor.addSegment segment).available := by
  cases hfollows with
  | reading passed current rest hsegments hcursor hposition hboundary hbound hmax =>
    have hsame : (cursor.addSegment segment).boundary = cursor.boundary := by
      cases rest with
      | nil => simpa [Cursor.addSegment, hcursor, segmentEnd, hoffset] using hboundary.symm
      | cons next others => simpa [Cursor.addSegment, hcursor, segmentEnd] using hboundary.symm
    have hsegment : (cursor.addSegment segment).available =
        (cursor.addSegment segment).boundary - cursor.offset := by
      simp [available, Cursor.addSegment]
    rw [hsegment, hsame]
    simp [available, hcursor]
  | waiting gone hcursor hplace hgone hnamed hnone hboundary hmax =>
    unfold available
    split <;> omega

namespace TopicLog

/-- The cursor of a registered reader. -/
def cursorOf? (log : TopicLog) (id : Nat) : Option Cursor :=
  (log.readers.find? fun reader => reader.id = id).map (·.cursor)

/-- The next reader gets an identity that no registered reader has. -/
def Numbered (log : TopicLog) : Prop :=
  ∀ reader ∈ log.readers, reader.id < log.nextReader

theorem exists_reader_of_cursorOf? (hfound : log.cursorOf? id = some cursor) :
    ∃ reader ∈ log.readers, reader.id = id ∧ reader.cursor = cursor ∧
      log.reader? id = some reader := by
  obtain ⟨reader, hreader, rfl⟩ := Option.map_eq_some_iff.mp hfound
  refine ⟨reader, List.mem_of_find?_eq_some hreader, ?_, rfl, ?_⟩
  · simpa using List.find?_some hreader
  · rw [reader?, List.find?_append, hreader, Option.some_or]

theorem gate_le_of_mem {reader : Reader} (hmem : reader ∈ log.readers) :
    log.gate ≤ reader.cursor.offset := by
  have hoffset : reader.cursor.offset ∈ log.readers.map (·.cursor.offset) :=
    List.mem_map_of_mem (f := fun reader : Reader => reader.cursor.offset) hmem
  unfold gate
  cases hmin : (log.readers.map (·.cursor.offset)).min? with
  | none =>
    rw [List.min?_eq_none_iff.mp hmin] at hoffset
    cases hoffset
  | some least => exact (List.min?_eq_some_iff.mp hmin).2 _ hoffset

theorem gate_le (hfound : log.cursorOf? id = some cursor) : log.gate ≤ cursor.offset := by
  obtain ⟨reader, hmem, -, rfl, -⟩ := exists_reader_of_cursorOf? hfound
  exact gate_le_of_mem hmem

theorem cursorOf?_mapCursors (change : Cursor → Cursor) :
    (log.mapCursors change).cursorOf? id = (log.cursorOf? id).map change := by
  simp only [cursorOf?, mapCursors, List.find?_map, Option.map_map]
  rfl

theorem cursorOf?_setCursor (hfound : log.cursorOf? id = some cursor) :
    (log.setCursor id moved).cursorOf? id = some moved := by
  obtain ⟨reader, hreader, -⟩ := Option.map_eq_some_iff.mp hfound
  have hid : reader.id = id := by simpa using List.find?_some hreader
  have hsame : (fun reader : Reader => decide (reader.id = id)) ∘
      (fun reader : Reader => if reader.id = id then { reader with cursor := moved } else reader) =
      fun reader => decide (reader.id = id) := by
    funext reader
    by_cases hreader : reader.id = id <;> simp [hreader]
  simp only [cursorOf?, setCursor, List.find?_map, hsame, hreader, Option.map_some, hid, if_true]

theorem cursorOf?_removeReader {other : Nat} (hne : id ≠ other) :
    (log.removeReader other).cursorOf? id = log.cursorOf? id := by
  have hsame : (fun reader : Reader => decide (reader.id = id)) =
      fun reader => decide (decide (reader.id ≠ other) = true ∧ decide (reader.id = id) = true) := by
    funext reader
    by_cases hreader : reader.id = id <;> simp [hreader, hne]
  simp only [cursorOf?, removeReader, List.find?_filter]
  rw [← hsame]

theorem numbered_mapCursors (hnumbered : log.Numbered) (change : Cursor → Cursor) :
    (log.mapCursors change).Numbered := by
  intro reader hmem
  obtain ⟨old, hold, rfl⟩ := List.mem_map.mp hmem
  exact hnumbered old hold

theorem numbered_setCursor (hnumbered : log.Numbered) :
    (log.setCursor id moved).Numbered := by
  intro reader hmem
  obtain ⟨old, hold, rfl⟩ := List.mem_map.mp hmem
  change _ < log.nextReader
  by_cases hid : old.id = id
  · rw [if_pos hid]
    exact hnumbered old hold
  · rw [if_neg hid]
    exact hnumbered old hold

theorem numbered_removeReader (hnumbered : log.Numbered) : (log.removeReader id).Numbered :=
  fun reader hmem => hnumbered reader (List.mem_filter.mp hmem).1

theorem numbered_startedAt (hnumbered : log.Numbered) (segment : Segment) :
    (log.startedAt segment).Numbered := by
  intro reader hmem
  obtain ⟨old, hold, rfl⟩ := List.mem_map.mp hmem
  exact hnumbered old hold

theorem Widened.numbered (hwide : log.Widened after) (hnumbered : log.Numbered) :
    after.Numbered := by
  cases hwide with
  | same => exact hnumbered
  | added segment _ => exact numbered_mapCursors hnumbered (Cursor.addSegment segment)

theorem Grown.numbered {length : Nat} (hgrown : log.Grown length after)
    (hnumbered : log.Numbered) : after.Numbered := by
  obtain ⟨wide, active, hwide, -⟩ := hgrown
  exact numbered_mapCursors (hwide.numbered hnumbered) (Cursor.addBytes length)

theorem Cleaned.nextReader_eq {gate : Nat} (hcleaned : log.Cleaned gate after) :
    after.nextReader = log.nextReader := by
  induction hcleaned with
  | same => rfl
  | oldest _ _ _ ih => exact ih
  | last => rfl

theorem Cleaned.topic_eq {gate : Nat} (hcleaned : log.Cleaned gate after) :
    after.topic = log.topic := by
  induction hcleaned with
  | same => rfl
  | oldest _ _ _ ih => exact ih
  | last => rfl

theorem Cleaned.numbered {gate : Nat} (hcleaned : log.Cleaned gate after)
    (hnumbered : log.Numbered) : after.Numbered := by
  intro reader hmem
  rw [hcleaned.readers_eq] at hmem
  rw [hcleaned.nextReader_eq]
  exact hnumbered reader hmem

/-- A registered reader stands at `cursor`, which follows the log unless its reading has halted. -/
structure Tracked (log : TopicLog) (id : Nat) (halted : Bool) (cursor : Cursor) : Prop where
  found : log.cursorOf? id = some cursor
  maxOffset : cursor.maxOffset = log.maxOffset
  bounded : cursor.offset ≤ log.maxOffset
  follows : halted = false → cursor.Follows log

namespace Tracked

/-- A reader that is told of what was added stays where it is, with no less to read than before. -/
theorem grown (htracked : log.Tracked id halted cursor) {length : Nat}
    (hgrown : log.Grown length after) :
    ∃ moved, after.Tracked id halted moved ∧ moved.offset = cursor.offset ∧
      (halted = false → cursor.available ≤ moved.available) := by
  obtain ⟨wide, active, hwide, hsegments⟩ := hgrown
  obtain ⟨noted, hnoted, hoffset, havailable⟩ : ∃ noted, wide.Tracked id halted noted ∧
      noted.offset = cursor.offset ∧ (halted = false → cursor.available ≤ noted.available) := by
    cases hwide with
    | same => exact ⟨cursor, htracked, rfl, fun _ => le_rfl⟩
    | added segment hoffset =>
      refine ⟨cursor.addSegment segment, ⟨?_, htracked.maxOffset, htracked.bounded, ?_⟩, rfl, ?_⟩
      · exact (cursorOf?_mapCursors _).trans (congrArg _ htracked.found)
      · exact fun hreading => (htracked.follows hreading).addSegment hoffset
      · exact fun hreading => (htracked.follows hreading).available_le_addSegment hoffset
  refine ⟨noted.addBytes length, ⟨?_, ?_, ?_, ?_⟩, hoffset, ?_⟩
  · exact (cursorOf?_mapCursors _).trans (congrArg _ hnoted.found)
  · exact congrArg (· + length) hnoted.maxOffset
  · exact hnoted.bounded.trans (Nat.le_add_right _ _)
  · exact fun hreading => ((hnoted.follows hreading).addBytes hsegments length).congr rfl rfl
  · exact fun hreading => (havailable hreading).trans
      ((hnoted.follows hreading).available_le_addBytes length)

/-- A cleanup does not go beyond any reader. -/
theorem cleaned (htracked : log.Tracked id halted cursor) (hordered : log.Ordered) {gate : Nat}
    (hcleaned : log.Cleaned gate after) (hgate : gate ≤ log.gate) :
    after.Tracked id halted cursor := by
  refine ⟨?_, ?_, ?_, fun hreading => ?_⟩
  · rw [cursorOf?, hcleaned.readers_eq]
    exact htracked.found
  · exact htracked.maxOffset.trans hcleaned.maxOffset_eq.symm
  · exact htracked.bounded.trans hcleaned.maxOffset_eq.ge
  · exact (htracked.follows hreading).cleaned hordered hcleaned
      (hgate.trans (gate_le htracked.found))

theorem setCursor (htracked : log.Tracked id halted cursor) {stopped : Bool}
    (hmax : moved.maxOffset = log.maxOffset) (hbounded : moved.offset ≤ log.maxOffset)
    (hfollows : stopped = false → moved.Follows log) :
    (log.setCursor id moved).Tracked id stopped moved :=
  ⟨cursorOf?_setCursor htracked.found, hmax, hbounded,
    fun hreading => (hfollows hreading).congr rfl rfl⟩

/-- A reader goes where its log starts anew. -/
theorem startedAt (htracked : log.Tracked id halted cursor) (segment : Segment) :
    ∃ moved, (log.startedAt segment).Tracked id halted moved := by
  let start : Cursor :=
    { segments := [segment], offset := segment.offset, position := 0, boundary := segment.offset
      maxOffset := segment.offset }
  have hfound : (log.startedAt segment).cursorOf? id = some start :=
    (cursorOf?_mapCursors fun _ => start).trans (congrArg _ htracked.found)
  exact ⟨start, hfound, rfl, le_rfl, fun _ => .reading [] segment [] rfl rfl rfl rfl le_rfl rfl⟩

theorem removeReader (htracked : log.Tracked id halted cursor) {other : Nat} (hne : id ≠ other) :
    (log.removeReader other).Tracked id halted cursor :=
  ⟨(cursorOf?_removeReader hne).trans htracked.found, htracked.maxOffset, htracked.bounded,
    fun hreading => (htracked.follows hreading).congr rfl rfl⟩

theorem ne_nextReader (htracked : log.Tracked id halted cursor) (hnumbered : log.Numbered) :
    id ≠ log.nextReader := by
  obtain ⟨reader, hmem, rfl, -, -⟩ := exists_reader_of_cursorOf? htracked.found
  exact (hnumbered reader hmem).ne

end Tracked

/-- A new reader is found under its identity. -/
theorem cursorOf?_nextReader (hnumbered : log.Numbered) (name : String) (cursor : Cursor) :
    cursorOf? { log with
      readers := log.readers ++ [⟨log.nextReader, name, cursor⟩]
      nextReader := log.nextReader + 1 } log.nextReader = some cursor := by
  have hnone : log.readers.find? (fun reader => reader.id = log.nextReader) = none := by
    rw [List.find?_eq_none]
    intro reader hmem
    simpa using (hnumbered reader hmem).ne
  simp [cursorOf?, List.find?_append, hnone]

/-- A new reader joins the others without disturbing them. -/
theorem addReader_spec {name : String} {offset : Nat} {added : Nat × TopicLog}
    (hadd : log.addReader name offset = .ok added) (hnumbered : log.Numbered)
    (hordered : log.Ordered) :
    added.1 = log.nextReader ∧ added.2.Numbered ∧
      (∃ cursor, added.2.Tracked added.1 false cursor ∧ cursor.offset = offset) ∧
      (∀ id halted cursor, log.Tracked id halted cursor → added.2.Tracked id halted cursor) := by
  obtain ⟨cursor, hplace, rfl⟩ := addReader_eq_ok hadd
  obtain ⟨hfollows, hoffset⟩ := Cursor.follows_of_place hplace
  have hfound := cursorOf?_nextReader hnumbered name cursor
  refine ⟨rfl, ?_, ⟨cursor, ⟨hfound, hfollows.maxOffset_eq, hfollows.offset_le hordered, ?_⟩, hoffset⟩,
    ?_⟩
  · intro reader hmem
    rcases List.mem_append.mp hmem with hmem | hmem
    · exact (hnumbered reader hmem).trans (Nat.lt_succ_self _)
    · rw [List.mem_singleton.mp hmem]
      exact Nat.lt_succ_self _
  · exact fun _ => hfollows.congr rfl rfl
  · intro id halted cursor htracked
    refine ⟨?_, htracked.maxOffset, htracked.bounded, fun hreading =>
      (htracked.follows hreading).congr rfl rfl⟩
    obtain ⟨reader, hreader, hcursor⟩ := Option.map_eq_some_iff.mp htracked.found
    simp [cursorOf?, List.find?_append, hreader, hcursor]

end TopicLog

end ReplicatedLog
