import ReplicatedLog.Proofs.Log.Layout

namespace ReplicatedLog

namespace TopicLog

/-- At most a segment was added to a log, and that at its end. -/
inductive Widened (log : TopicLog) : TopicLog → Prop
  | same : Widened log log
  | added (segment : Segment) (hoffset : segment.offset = log.maxOffset) :
      Widened log (log.addSegment segment)

variable {log wide : TopicLog}

theorem Widened.maxOffset_eq (hwide : log.Widened wide) : wide.maxOffset = log.maxOffset := by
  cases hwide <;> rfl

theorem Widened.firstOffset_eq (hwide : log.Widened wide) : wide.firstOffset = log.firstOffset := by
  cases hwide with
  | same => rfl
  | added segment hoffset =>
    cases hsegments : log.segments with
    | nil => simp [firstOffset, addSegment, hsegments, hoffset]
    | cons first rest => simp [firstOffset, addSegment, hsegments]

/-- Bytes were counted at the end of a log, behind at most one new segment. -/
inductive Grown (log : TopicLog) (length : Nat) : TopicLog → Prop
  | intro (wide : TopicLog) (active : Option OpenFile) (hwide : log.Widened wide)
      (hsegments : wide.segments ≠ []) :
      Grown log length { wide.addBytes length with active }

theorem firstOffset_addBytes (hsegments : log.segments ≠ []) (length : Nat) :
    (log.addBytes length).firstOffset = log.firstOffset := by
  obtain ⟨first, rest, hcons⟩ := List.exists_cons_of_ne_nil hsegments
  simp [firstOffset, addBytes, mapCursors, hcons]

/-- A log that starts anew with one segment, where all its readers stand then. -/
def startedAt (log : TopicLog) (segment : Segment) : TopicLog :=
  let start : Cursor :=
    { segments := [segment], offset := segment.offset, position := 0, boundary := segment.offset
      maxOffset := segment.offset }
  { log.mapCursors fun _ => start with segments := [segment], maxOffset := segment.offset }

namespace Grown

variable {after : TopicLog} {length : Nat}

theorem maxOffset_eq (hgrown : log.Grown length after) :
    after.maxOffset = log.maxOffset + length := by
  obtain ⟨wide, active, hwide, -⟩ := hgrown
  exact congrArg (· + length) hwide.maxOffset_eq

theorem firstOffset_eq (hgrown : log.Grown length after) : after.firstOffset = log.firstOffset := by
  obtain ⟨wide, active, hwide, hsegments⟩ := hgrown
  exact (firstOffset_addBytes hsegments length).trans hwide.firstOffset_eq

theorem segments_ne_nil (hgrown : log.Grown length after) : after.segments ≠ [] := by
  obtain ⟨wide, active, -, hsegments⟩ := hgrown
  exact hsegments

theorem topic_eq (hgrown : log.Grown length after) : after.topic = log.topic := by
  obtain ⟨wide, active, hwide, -⟩ := hgrown
  cases hwide <;> rfl

end Grown

end TopicLog

namespace StoredLog

variable {stored : StoredLog} {parts front : List Part} {last : Part} {now : Instant} {start : Nat}

/-- A segment behind all others gets an empty file of its own. -/
theorem createSegment_spec {dir : Directory} (hdir : dir.Sound)
    (hfolder : dir.place = .folder dir.entries) (hnow : now.InCalendar)
    (hstart : start ≤ Decimal.maxValue)
    (hlast : ∀ entry ∈ dir.files, entry.1 < SegmentName.encode start now) :
    ∃ file made, createSegment dir start now = (.ok ⟨SegmentName.encode start now, start⟩, made) ∧
      made.Sound ∧ made.files = dir.files ++ [(SegmentName.encode start now, file)] ∧
      file.bytes = [] ∧ made.nextId = dir.nextId + 1 := by
  have hname := SegmentName.offset_encode hstart hnow
  obtain ⟨made, hopen, hsound, hfiles, hid⟩ := hdir.openFile_last hfolder hname hlast now
  have hsegment : Segment.ofName (SegmentName.encode start now) =
      .ok ⟨SegmentName.encode start now, start⟩ := Segment.ofName_eq_ok_iff.mpr ⟨rfl, hname⟩
  refine ⟨_, made, ?_, hsound, hfiles, rfl, hid⟩
  simp only [createSegment, hopen, hsegment]

namespace Laid

/-- The name of a segment that starts behind all others is behind their names too. -/
theorem lt_encode (hlaid : stored.Laid parts) (hnow : now.InCalendar)
    (hstart : start ≤ Decimal.maxValue) (hbefore : ∀ part ∈ parts, part.segment.offset < start) :
    ∀ entry ∈ stored.dir.files, entry.1 < SegmentName.encode start now := by
  intro entry hentry
  rw [hlaid.files] at hentry
  obtain ⟨part, hpart, rfl⟩ := List.mem_map.mp hentry
  exact SegmentName.lt_of_offset_lt (hlaid.named part hpart)
    (SegmentName.offset_encode hstart hnow) (hbefore part hpart)

/-- A last segment is reused only where it is empty. Else all segments start before the end. -/
theorem emptyLast?_spec (hlaid : stored.Laid parts) :
    (emptyLast? stored.log stored.dir = .ok none ∧
      ∀ part ∈ parts, part.segment.offset < stored.log.maxOffset) ∨
    ∃ front last, parts = front ++ [last] ∧ last.file.bytes = [] ∧
      last.segment.offset = stored.log.maxOffset ∧
      emptyLast? stored.log stored.dir = .ok (some last.segment) := by
  unfold emptyLast?
  rw [hlaid.getLast?_segments]
  cases hlast : parts.getLast? with
  | none =>
    obtain rfl := List.getLast?_eq_none_iff.mp hlast
    exact Or.inl ⟨rfl, by simp⟩
  | some last =>
    obtain ⟨front, rfl⟩ := List.getLast?_eq_some_iff.mp hlast
    have hmem : last ∈ front ++ [last] := List.mem_append_right _ List.mem_cons_self
    have hstop := hlaid.chained.stop_of_getLast? hlast
    by_cases hoffset : last.segment.offset = stored.log.maxOffset
    · have hempty : last.file.bytes.length = 0 := by omega
      refine Or.inr ⟨front, last, rfl, List.length_eq_zero_iff.mp hempty, hoffset, ?_⟩
      simp [hoffset, hlaid.size_of_mem hmem, hempty]
    · refine Or.inl ⟨by simp [hoffset], fun part hpart => ?_⟩
      have hlt : last.segment.offset < stored.log.maxOffset := by omega
      rcases List.mem_append.mp hpart with hfront | hpart
      · have hpairs := List.pairwise_append.mp hlaid.chained.ascending
        exact (hpairs.2.2 part hfront last List.mem_cons_self).trans hlt
      · rwa [List.mem_singleton.mp hpart]

/-- A segment added at the end of a log starts its chain where the log was empty. -/
theorem addSegment (hlaid : stored.Laid parts) {dir : Directory} {segment : Segment} {file : File}
    (hdir : dir.Sound) (hfiles : dir.files = stored.dir.files ++ [(segment.name, file)])
    (hname : SegmentName.offset segment.name = .ok segment.offset)
    (hoffset : segment.offset = stored.log.maxOffset) (hempty : file.bytes = [])
    (hbefore : ∀ part ∈ parts, part.segment.offset < stored.log.maxOffset) :
    Laid { log := stored.log.addSegment segment, dir } (parts ++ [⟨segment, file⟩]) := by
  have hfirst := (TopicLog.Widened.added segment hoffset).firstOffset_eq
  have hchained : Part.Chained _ (parts ++ [⟨segment, file⟩]) _ :=
    hlaid.chained.concat hbefore hoffset
  refine ⟨hdir, ?_, ?_, ?_, ?_, hlaid.bounded, ?_⟩
  · rw [List.map_append, ← hlaid.files]
    exact hfiles
  · rw [List.map_append, ← hlaid.segments]
    rfl
  · intro part hpart
    rcases List.mem_append.mp hpart with hpart | hpart
    · exact hlaid.named part hpart
    · rw [List.mem_singleton.mp hpart]
      exact hname
  · rw [hempty, List.length_nil, Nat.add_zero] at hchained
    rw [hfirst]
    exact hchained
  · intro opened hopened
    rw [hfirst]
    refine (hlaid.active opened hopened).imp_left ?_
    rintro ⟨part, hpart, hpartOpen⟩
    exact ⟨part, List.mem_append_left _ hpart, hpartOpen⟩

/-- After a roll the last segment is empty and starts at the end of the log. -/
theorem roll_spec (hlaid : stored.Laid parts) (hnow : now.InCalendar) :
    ∃ front last after, stored.roll now = (.ok last.segment, after) ∧
      after.Laid (front ++ [last]) ∧ last.segment.offset = stored.log.maxOffset ∧
      Part.contents (front ++ [last]) = Part.contents parts ∧ stored.log.Widened after.log ∧
      stored.dir.nextId ≤ after.dir.nextId := by
  obtain ⟨made, hmake, hsound, hfolder, hfiles, hid⟩ := hlaid.sound.make_spec
  have hmade : Laid { stored with dir := made } parts := hlaid.of_files_eq hsound hfiles
  rcases hmade.emptyLast?_spec with ⟨hempty, hbefore⟩ | ⟨front, last, rfl, hbytes, hoffset, hempty⟩
  · have hlast := hmade.lt_encode hnow hlaid.bounded hbefore
    obtain ⟨file, dir, hcreate, hdir, hadded, hbytes, hnext⟩ :=
      createSegment_spec hsound hfolder hnow hlaid.bounded hlast
    let segment : Segment := ⟨SegmentName.encode stored.log.maxOffset now, stored.log.maxOffset⟩
    refine ⟨parts, ⟨segment, file⟩, ⟨stored.log.addSegment segment, dir⟩, ?_, ?_, rfl, ?_, ?_, ?_⟩
    · simp only [roll, hmake, hempty, hcreate, segment]
    · exact hmade.addSegment hdir hadded (SegmentName.offset_encode hlaid.bounded hnow) rfl hbytes
        hbefore
    · simp [hbytes]
    · exact .added segment rfl
    · change stored.dir.nextId ≤ dir.nextId
      omega
  · refine ⟨front, last, _, ?_, hmade, hoffset, rfl, .same, hid.ge⟩
    simp only [roll, hmake, hempty]

/-- Bytes go to the last segment, or to a new one behind it. -/
theorem activeSegment_spec (hlaid : stored.Laid parts) (rollSize : Nat) (hnow : now.InCalendar) :
    ∃ front last after, stored.activeSegment rollSize now = (.ok last.segment, after) ∧
      after.Laid (front ++ [last]) ∧ Part.contents (front ++ [last]) = Part.contents parts ∧
      stored.log.Widened after.log ∧ stored.dir.nextId ≤ after.dir.nextId := by
  obtain ⟨rolledFront, rolledLast, rolled, hroll, hrolled, -, hcontents, hwide, hid⟩ :=
    hlaid.roll_spec hnow
  have hlastSegment := hlaid.getLast?_segments
  unfold activeSegment
  cases hlast : parts.getLast? with
  | none =>
    simp only [hlastSegment, hlast, Option.map_none]
    exact ⟨rolledFront, rolledLast, rolled, hroll, hrolled, hcontents, hwide, hid⟩
  | some last =>
    obtain ⟨front, rfl⟩ := List.getLast?_eq_some_iff.mp hlast
    have hsize := hlaid.size_of_mem (List.mem_append_right front List.mem_cons_self)
    simp only [hlastSegment, hlast, Option.map_some, hsize]
    by_cases hfits : last.file.bytes.length ≤ rollSize
    · rw [if_pos hfits]
      exact ⟨front, last, stored, rfl, hlaid, rfl, .same, le_rfl⟩
    · rw [if_neg hfits]
      exact ⟨rolledFront, rolledLast, rolled, hroll, hrolled, hcontents, hwide, hid⟩

/-- The file that is opened for a segment is its own. -/
theorem openSegment_spec (hlaid : stored.Laid (front ++ [last])) (now : Instant) :
    ∃ active, stored.openSegment last.segment now =
        .ok (last.file.id, { stored with log := { stored.log with active } }) ∧
      Laid { stored with log := { stored.log with active } } (front ++ [last]) := by
  have hmem : last ∈ front ++ [last] := List.mem_append_right _ List.mem_cons_self
  have hname := hlaid.named last hmem
  unfold openSegment
  cases hactive : stored.log.active.filter fun active => active.name = last.segment.name with
  | some opened =>
    obtain ⟨hopened, hsame⟩ := Option.filter_eq_some_iff.mp hactive
    have hsame : opened.name = last.segment.name := by simpa using hsame
    refine ⟨stored.log.active, ?_, hlaid⟩
    rcases hlaid.active opened hopened with ⟨part, hpart, hpartName, hid⟩ | ⟨start, hstart, hlt⟩
    · rw [hlaid.eq_of_name_eq hpart hmem (hpartName.trans hsame)] at hid
      simp [hid]
    · rw [hsame, hname] at hstart
      have hle := (hlaid.chained.bounds hmem).1
      obtain rfl := Except.ok.inj hstart
      omega
  | none =>
    have hopen := hlaid.sound.openFile_of_mem hname (hlaid.mem_files hmem) now
    refine ⟨some ⟨last.segment.name, last.file.id⟩, by simp only [hopen], ?_⟩
    refine ⟨hlaid.sound, hlaid.files, hlaid.segments, hlaid.named, hlaid.chained, hlaid.bounded, ?_⟩
    intro opened hopened
    obtain rfl := Option.some.inj hopened
    exact Or.inl ⟨last, hmem, rfl, rfl⟩

/-- No two segments share a file. -/
theorem id_ne_of_mem (hlaid : stored.Laid (front ++ [last])) {part : Part} (hmem : part ∈ front) :
    part.file.id ≠ last.file.id := by
  have hids := hlaid.sound.identities
  rw [hlaid.files, List.map_map, List.map_append, List.nodup_append] at hids
  exact hids.2.2 _ (List.mem_map_of_mem hmem) _ (List.mem_map_of_mem List.mem_cons_self)

theorem files_extend_last (hlaid : stored.Laid (front ++ [last])) (data : Bytes) (now : Instant) :
    (stored.dir.extend last.file.id data now).files =
      (front ++ [{ last with file := Items.extended last.file.id data now last.file }]).map
        Part.entry := by
  rw [hlaid.sound.files_extend, hlaid.files, List.map_map, List.map_append, List.map_append]
  refine congrArg₂ _ (List.map_congr_left fun part hmem => ?_) rfl
  have hne := hlaid.id_ne_of_mem hmem
  simp [Part.entry, Items.extended, hne]

/-- Bytes written to the last file and counted in the log extend both alike. -/
theorem extend_last (hlaid : stored.Laid (front ++ [last])) (data : Bytes) (now : Instant)
    (hfits : stored.log.maxOffset + data.length ≤ Decimal.maxValue) :
    Laid { log := stored.log.addBytes data.length, dir := stored.dir.extend last.file.id data now }
      (front ++ [{ last with file := Items.extended last.file.id data now last.file }]) := by
  have hsegments : stored.log.segments ≠ [] := by
    rw [hlaid.segments]
    simp
  have hfirst := TopicLog.firstOffset_addBytes hsegments data.length
  have hfile : (Items.extended last.file.id data now last.file).bytes = last.file.bytes ++ data := by
    simp [Items.extended]
  refine ⟨hlaid.sound.extend _ _ _, hlaid.files_extend_last data now, ?_, ?_, ?_, hfits, ?_⟩
  · rw [List.map_append]
    exact hlaid.segments.trans List.map_append
  · intro part hpart
    rcases List.mem_append.mp hpart with hpart | hpart
    · exact hlaid.named part (List.mem_append_left _ hpart)
    · rw [List.mem_singleton.mp hpart]
      exact hlaid.named last (List.mem_append_right _ List.mem_cons_self)
  · rw [hfirst]
    exact hlaid.chained.extend_last hfile
  · intro opened hopened
    rw [hfirst]
    refine (hlaid.active opened hopened).imp_left ?_
    rintro ⟨part, hpart, hname, hid⟩
    rcases List.mem_append.mp hpart with hpart | hpart
    · exact ⟨part, List.mem_append_left _ hpart, hname, hid⟩
    · obtain rfl := List.mem_singleton.mp hpart
      refine ⟨_, List.mem_append_right _ List.mem_cons_self, hname, ?_⟩
      rw [Directory.Sound.id_extended]
      exact hid

/-- An append succeeds, adds the bytes at the end and changes nothing before it. -/
theorem append_spec (hlaid : stored.Laid parts) (data : Bytes) (rollSize : Nat)
    (hnow : now.InCalendar) (hfits : stored.log.maxOffset + data.length ≤ Decimal.maxValue) :
    ∃ after grown, stored.append data rollSize now =
        (.ok (stored.log.maxOffset + data.length), after) ∧
      after.Laid grown ∧ Part.contents grown = Part.contents parts ++ data ∧
      stored.log.Grown data.length after.log ∧ stored.dir.nextId ≤ after.dir.nextId := by
  obtain ⟨front, last, wide, hactive, hwide, hcontents, hwidened, hid⟩ :=
    hlaid.activeSegment_spec rollSize hnow
  obtain ⟨active, hopen, hopened⟩ := hwide.openSegment_spec now
  have hmax := hwidened.maxOffset_eq
  have hextended := hopened.extend_last data now (by simpa [hmax] using hfits)
  refine ⟨_, _, ?_, hextended, ?_, ?_, ?_⟩
  · simp only [append, hactive, hopen, TopicLog.addBytes, hmax]
  · rw [Part.contents_append] at hcontents
    simp [← hcontents, Items.extended]
  · have hsegments : wide.log.segments ≠ [] := by
      rw [hwide.segments]
      simp
    exact .intro wide.log active hwidened hsegments
  · exact hid.trans (Directory.Sound.nextId_extend _ _ _ _).ge

/-- Bytes claimed for any other offset than the end are not added. -/
theorem appendAt_of_ne {offset : Nat} (hoffset : offset ≠ stored.log.maxOffset) (data : Bytes)
    (rollSize : Nat) (now : Instant) :
    stored.appendAt offset data rollSize now = (.ok (.mismatch stored.log.maxOffset), stored) := by
  rw [appendAt, if_pos hoffset]

/-- Bytes claimed for the end are added there. Without any, nothing happens. -/
theorem appendAt_maxOffset (hlaid : stored.Laid parts) (data : Bytes) (rollSize : Nat)
    (hnow : now.InCalendar) (hfits : stored.log.maxOffset + data.length ≤ Decimal.maxValue) :
    ∃ after grown, stored.appendAt stored.log.maxOffset data rollSize now =
        (.ok (.appended (stored.log.maxOffset + data.length)), after) ∧
      after.Laid grown ∧ Part.contents grown = Part.contents parts ++ data ∧
      (data = [] ∧ after = stored ∨ stored.log.Grown data.length after.log) ∧
      stored.dir.nextId ≤ after.dir.nextId := by
  cases data with
  | nil => exact ⟨stored, parts, by simp [appendAt], hlaid, by simp, Or.inl ⟨rfl, rfl⟩, le_rfl⟩
  | cons byte rest =>
    obtain ⟨after, grown, happend, hafter, hcontents, hgrown, hid⟩ :=
      hlaid.append_spec (byte :: rest) rollSize hnow hfits
    refine ⟨after, grown, ?_, hafter, hcontents, Or.inr hgrown, hid⟩
    simp [appendAt, happend, Except.map]

/-- A log without segments starts anew at an offset behind its end, and so do its readers. -/
theorem resumeAt_of_lt (hlaid : stored.Laid []) {offset : Nat} (hnow : now.InCalendar)
    (hoffset : offset ≤ Decimal.maxValue) (hlt : stored.log.maxOffset < offset) :
    ∃ part dir, stored.resumeAt offset now = (.ok (), ⟨stored.log.startedAt part.segment, dir⟩) ∧
      Laid ⟨stored.log.startedAt part.segment, dir⟩ [part] ∧ part.segment.offset = offset ∧
      part.file.bytes = [] ∧ stored.dir.nextId ≤ dir.nextId := by
  have hempty : stored.log.segments = [] := hlaid.segments
  obtain ⟨made, hmake, hsound, hfolder, hfiles, hid⟩ := hlaid.sound.make_spec
  have hnone : made.files = [] := hfiles.trans hlaid.files
  obtain ⟨file, dir, hcreate, hdir, hadded, hbytes, hnext⟩ :=
    createSegment_spec hsound hfolder hnow hoffset (by simp [hnone])
  refine ⟨⟨⟨SegmentName.encode offset now, offset⟩, file⟩, dir, ?_, ?_, rfl, hbytes, by omega⟩
  · rw [resumeAt, if_neg (by simp [hempty, hlt])]
    simp only [hmake, hcreate]
    rfl
  · refine ⟨hdir, by simpa [hnone, Part.entry] using hadded, rfl, ?_, ?_, hoffset, ?_⟩
    · intro part hpart
      rw [List.mem_singleton.mp hpart]
      exact SegmentName.offset_encode hoffset hnow
    · exact ⟨rfl, by simp, by simp [hbytes, Part.Chained, TopicLog.firstOffset, TopicLog.startedAt]⟩
    · intro opened hopened
      rcases hlaid.active opened hopened with ⟨part, hpart, -⟩ | ⟨start, hstart, hbefore⟩
      · cases hpart
      · have hfirst : stored.log.firstOffset = stored.log.maxOffset := hlaid.chained
        refine Or.inr ⟨start, hstart, hbefore.trans_le ?_⟩
        rw [hfirst]
        exact hlt.le

end Laid

end StoredLog

end ReplicatedLog
