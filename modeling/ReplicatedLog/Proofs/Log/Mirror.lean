import ReplicatedLog.Proofs.Log.Append
import ReplicatedLog.Proofs.Log.Scanning

namespace ReplicatedLog

namespace Part

variable {parts front : List Part} {part last : Part}

theorem stop_concat (front : List Part) (last : Part) :
    stop (front ++ [last]) = last.segment.offset + last.file.bytes.length := by
  simp [stop]

end Part

namespace StoredLog

section Ascending

variable {stored : StoredLog} {dir : Directory}

theorem ascending_createSegment (hascending : dir.entries.Ascending) (start : Nat) (now : Instant) :
    (createSegment dir start now).2.entries.Ascending := by
  unfold createSegment
  dsimp only
  split
  · exact hascending
  next hopen => exact Directory.ascending_openFile hascending hopen

theorem ascending_roll (hascending : stored.dir.entries.Ascending) (now : Instant) :
    (stored.roll now).2.dir.entries.Ascending := by
  have hmade := Directory.ascending_make hascending
  unfold roll
  split
  next hmake =>
    rw [hmake] at hmade
    exact hmade
  next made hmake =>
    rw [hmake] at hmade
    have hcreated := ascending_createSegment hmade stored.log.maxOffset now
    split
    · exact hmade
    · exact hmade
    · split
      next hcreate =>
        rw [hcreate] at hcreated
        exact hcreated
      next hcreate =>
        rw [hcreate] at hcreated
        exact hcreated

theorem ascending_activeSegment (hascending : stored.dir.entries.Ascending) (rollSize : Nat)
    (now : Instant) : (stored.activeSegment rollSize now).2.dir.entries.Ascending := by
  unfold activeSegment
  split
  · exact ascending_roll hascending now
  · split
    · exact hascending
    · split
      · exact hascending
      · exact ascending_roll hascending now

/-- An append leaves the names in the directory in order, whatever stood there. -/
theorem ascending_append (hascending : stored.dir.entries.Ascending) (data : Bytes) (rollSize : Nat)
    (now : Instant) : (stored.append data rollSize now).2.dir.entries.Ascending := by
  have hactive := ascending_activeSegment hascending rollSize now
  unfold append
  split
  next hsegment =>
    rw [hsegment] at hactive
    exact hactive
  next segment wide hsegment =>
    rw [hsegment] at hactive
    split
    · exact hactive
    next file opened hopened =>
      refine Directory.ascending_extend ?_ file data now
      unfold openSegment at hopened
      split at hopened
      · obtain ⟨-, rfl⟩ := Prod.mk.inj (Except.ok.inj hopened)
        exact hactive
      · split at hopened
        · cases hopened
        next hfile =>
          obtain ⟨-, rfl⟩ := Prod.mk.inj (Except.ok.inj hopened)
          exact Directory.ascending_openFile hactive hfile

end Ascending

/-- A log with the segments and the end that its directory shows. The file that it has open is the one
    of a segment. -/
structure Mirrors (stored : StoredLog) (parts : List Part) : Prop where
  usable : stored.dir.Usable
  ascending : stored.dir.entries.Ascending
  files : stored.dir.files = parts.map Part.entry
  named : ∀ part ∈ parts, SegmentName.offset part.segment.name = .ok part.segment.offset
  segments : stored.log.segments = parts.map (·.segment)
  maxOffset : stored.log.maxOffset = Part.stop parts % (Decimal.maxValue + 1)
  active : ∀ opened, stored.log.active = some opened →
    ∃ part ∈ parts, part.segment.name = opened.name ∧ part.file.id = opened.file

variable {stored : StoredLog} {parts front : List Part} {last : Part} {now : Instant} {topic : String}
  {dir : Directory}

/-- A directory that can be opened is mirrored by the log that is found there. -/
theorem exists_mirrors_of_open (hopen : ofDirectory topic dir = .ok stored)
    (hascending : dir.entries.Ascending) (hnamed : ∀ parent, dir.place ≠ .unnameable parent) :
    ∃ parts, stored.Mirrors parts := by
  obtain ⟨parts, hholds, rfl⟩ := ofDirectory_eq_ok_iff.mp hopen
  refine ⟨parts, ?_, hascending, hholds.files, hholds.named, rfl, rfl, by simp⟩
  have hlisting := hholds.listing
  unfold Directory.Usable Directory.entries
  cases hplace : dir.place with
  | missing => exact Or.inl rfl
  | file =>
    simp [Directory.listing, Directory.items, hplace, Directory.absent, bind, Except.bind,
      IoFault.notFound, IoFault.notADirectory] at hlisting
  | folder items => exact Or.inr rfl
  | unnameable parent => exact absurd hplace (hnamed parent)

/-- A segment behind all others gets an empty file of its own, unless a directory stands at its name. -/
theorem createSegment_cases {start : Nat} (hfolder : dir.place = .folder dir.entries)
    (hascending : dir.entries.Ascending) (hnow : now.InCalendar) (hstart : start ≤ Decimal.maxValue)
    (hlast : ∀ entry ∈ dir.files, entry.1 < SegmentName.encode start now) :
    (∃ fault, createSegment dir start now = (.error fault, dir)) ∨
    ∃ file made, createSegment dir start now = (.ok ⟨SegmentName.encode start now, start⟩, made) ∧
      made.place = .folder made.entries ∧ made.entries.Ascending ∧
      made.files = dir.files ++ [(SegmentName.encode start now, file)] ∧ file.bytes = [] := by
  have hname := SegmentName.offset_encode hstart hnow
  have hsegment : Segment.ofName (SegmentName.encode start now) =
      .ok ⟨SegmentName.encode start now, start⟩ := Segment.ofName_eq_ok_iff.mpr ⟨rfl, hname⟩
  have hitem := Directory.item_of_folder hfolder hname
  cases hfind : dir.entries.find? (SegmentName.encode start now) with
  | some item =>
    rw [hfind] at hitem
    cases item with
    | file file =>
      have hmem := hascending.find?_eq_some_iff.mp hfind
      exact absurd (hlast _ (Items.mem_files.mpr hmem)) (lt_irrefl _)
    | folder =>
      refine Or.inl ⟨.io .isADirectory, ?_⟩
      simp [createSegment, Directory.openFile, Directory.items_of_folder hfolder, hitem,
        Directory.absent, bind, Except.bind]
  | none =>
    rw [hfind] at hitem
    have hnew : ∀ item, (SegmentName.encode start now, item) ∉ dir.entries := by
      intro item hmem
      rw [hascending.find?_eq_some_iff.mpr hmem] at hfind
      cases hfind
    let file : File := ⟨dir.nextId, [], now⟩
    let made : Directory :=
      ⟨.folder (dir.entries.insert (SegmentName.encode start now) (.file file)), dir.nextId + 1⟩
    refine Or.inr ⟨file, made, ?_, rfl, hascending.insert _ _,
      hascending.files_insert_last hlast hnew, rfl⟩
    simp [createSegment, Directory.openFile, Directory.items_of_folder hfolder, hitem, hsegment,
      Directory.absent, bind, Except.bind, made, file]

namespace Mirrors

/-- Readers and listeners are no part of what a directory shows, nor is what identities were given out
    for files elsewhere. -/
theorem congr (hmirrors : stored.Mirrors parts) {other : StoredLog}
    (hsegments : other.log.segments = stored.log.segments)
    (hmaxOffset : other.log.maxOffset = stored.log.maxOffset)
    (hactive : other.log.active = stored.log.active) (hplace : other.dir.place = stored.dir.place) :
    other.Mirrors parts := by
  have hentries : other.dir.entries = stored.dir.entries := by
    rw [Directory.entries, hplace]
    rfl
  refine ⟨?_, ?_, ?_, hmirrors.named, hsegments.trans hmirrors.segments,
    hmaxOffset.trans hmirrors.maxOffset, fun opened hopened => hmirrors.active opened ?_⟩
  · rw [Directory.Usable, hplace, hentries]
    exact hmirrors.usable
  · rw [hentries]
    exact hmirrors.ascending
  · rw [Directory.files, hentries]
    exact hmirrors.files
  · rw [← hactive, hopened]

theorem holds (hmirrors : stored.Mirrors parts) : stored.dir.Holds parts :=
  ⟨hmirrors.usable.listing, hmirrors.files, hmirrors.named⟩

/-- Whoever opens the directory finds the segments and the end of the log. -/
theorem ofDirectory_eq (hmirrors : stored.Mirrors parts) (topic : String) :
    ofDirectory topic stored.dir = .ok
      { log := { topic, segments := stored.log.segments, maxOffset := stored.log.maxOffset }
        dir := stored.dir } := by
  refine ofDirectory_eq_ok_iff.mpr ⟨parts, hmirrors.holds, ?_⟩
  rw [hmirrors.segments, hmirrors.maxOffset]

theorem maxOffset_le (hmirrors : stored.Mirrors parts) :
    stored.log.maxOffset ≤ Decimal.maxValue := by
  rw [hmirrors.maxOffset]
  exact Nat.le_of_lt_succ (Nat.mod_lt _ (Nat.succ_pos _))

/-- The log ends where its last file does, if that is an offset. -/
theorem maxOffset_eq (hmirrors : stored.Mirrors parts)
    (hbounded : Part.stop parts ≤ Decimal.maxValue) : stored.log.maxOffset = Part.stop parts :=
  hmirrors.maxOffset.trans (Decimal.mod_eq hbounded)

theorem mem_files (hmirrors : stored.Mirrors parts) {part : Part} (hmem : part ∈ parts) :
    (part.segment.name, part.file) ∈ stored.dir.files := by
  rw [hmirrors.files]
  exact List.mem_map_of_mem (f := Part.entry) hmem

theorem file_of_mem (hmirrors : stored.Mirrors parts) {part : Part} (hmem : part ∈ parts) :
    stored.dir.file part.segment.name = .ok part.file :=
  Directory.file_of_mem_files hmirrors.ascending (hmirrors.named part hmem) (hmirrors.mem_files hmem)

theorem size_of_mem (hmirrors : stored.Mirrors parts) {part : Part} (hmem : part ∈ parts) :
    stored.dir.size part.segment.name = .ok part.file.bytes.length := by
  simp [Directory.size, hmirrors.file_of_mem hmem, bind, Except.bind]

theorem stop_eq (hmirrors : stored.Mirrors parts) (hbounded : stored.Bounded) :
    Part.stop parts = stored.log.maxOffset := by
  refine (hmirrors.maxOffset_eq ?_).symm
  exact hbounded.stop_le hmirrors.segments fun part hmem => hmirrors.size_of_mem hmem

theorem getLast?_segments (hmirrors : stored.Mirrors parts) :
    stored.log.segments.getLast? = parts.getLast?.map (·.segment) := by
  rw [hmirrors.segments, List.getLast?_map]

/-- The same log, where its directory was made. -/
theorem make (hmirrors : stored.Mirrors parts) :
    ∃ made, stored.dir.make = (.ok (), made) ∧ made.place = .folder made.entries ∧
      Mirrors { stored with dir := made } parts := by
  obtain ⟨made, hmake, hfolder, hentries, -⟩ := hmirrors.usable.make
  refine ⟨made, hmake, hfolder, Or.inr hfolder, ?_, ?_, hmirrors.named, hmirrors.segments,
    hmirrors.maxOffset, hmirrors.active⟩
  · rw [hentries]
    exact hmirrors.ascending
  · rw [Directory.files, hentries]
    exact hmirrors.files

/-- A last segment is reused only where it is empty. Else all segments start before the end. -/
theorem emptyLast?_cases (hmirrors : stored.Mirrors parts)
    (hbounded : Part.stop parts ≤ Decimal.maxValue) :
    (emptyLast? stored.log stored.dir = .ok none ∧
      ∀ part ∈ parts, part.segment.offset < stored.log.maxOffset) ∨
    ∃ front last, parts = front ++ [last] ∧
      emptyLast? stored.log stored.dir = .ok (some last.segment) := by
  unfold emptyLast?
  rw [hmirrors.getLast?_segments]
  cases hlast : parts.getLast? with
  | none =>
    obtain rfl := List.getLast?_eq_none_iff.mp hlast
    exact Or.inl ⟨rfl, by simp⟩
  | some last =>
    obtain ⟨front, rfl⟩ := List.getLast?_eq_some_iff.mp hlast
    have hstop := (hmirrors.maxOffset_eq hbounded).trans (Part.stop_concat front last)
    have hsize := hmirrors.size_of_mem (List.mem_append_right front List.mem_cons_self)
    by_cases hoffset : last.segment.offset = stored.log.maxOffset
    · have hempty : last.file.bytes.length = 0 := by omega
      exact Or.inr ⟨front, last, rfl, by simp [hoffset, hsize, hempty]⟩
    · refine Or.inl ⟨by simp [hoffset], fun part hpart => ?_⟩
      have hlt : last.segment.offset < stored.log.maxOffset := by omega
      rcases List.mem_append.mp hpart with hfront | hpart
      · have hsorted := sorted_of_holds hmirrors.ascending hmirrors.holds
        have hle := (List.pairwise_append.mp hsorted).2.2 part hfront last List.mem_cons_self
        exact hle.2.trans_lt hlt
      · rwa [List.mem_singleton.mp hpart]

/-- The name of a segment that starts behind all others is behind their names too. -/
theorem lt_encode (hmirrors : stored.Mirrors parts) {start : Nat} (hnow : now.InCalendar)
    (hstart : start ≤ Decimal.maxValue) (hbefore : ∀ part ∈ parts, part.segment.offset < start) :
    ∀ entry ∈ stored.dir.files, entry.1 < SegmentName.encode start now := by
  intro entry hentry
  rw [hmirrors.files] at hentry
  obtain ⟨part, hpart, rfl⟩ := List.mem_map.mp hentry
  exact SegmentName.lt_of_offset_lt (hmirrors.named part hpart)
    (SegmentName.offset_encode hstart hnow) (hbefore part hpart)

/-- An empty segment at the end of the log joins the others. -/
theorem addSegment (hmirrors : stored.Mirrors parts) {segment : Segment} {file : File}
    (husable : dir.Usable) (hascending : dir.entries.Ascending)
    (hfiles : dir.files = stored.dir.files ++ [(segment.name, file)])
    (hname : SegmentName.offset segment.name = .ok segment.offset)
    (hoffset : segment.offset = stored.log.maxOffset) (hempty : file.bytes = []) :
    Mirrors { log := stored.log.addSegment segment, dir } (parts ++ [⟨segment, file⟩]) := by
  refine ⟨husable, hascending, ?_, ?_, ?_, ?_, ?_⟩
  · rw [List.map_append, ← hmirrors.files]
    exact hfiles
  · intro part hpart
    rcases List.mem_append.mp hpart with hpart | hpart
    · exact hmirrors.named part hpart
    · rw [List.mem_singleton.mp hpart]
      exact hname
  · rw [List.map_append, ← hmirrors.segments]
    rfl
  · rw [Part.stop_concat, hempty, hoffset]
    exact (Decimal.mod_eq hmirrors.maxOffset_le).symm
  · intro opened hopened
    obtain ⟨part, hpart, hopen⟩ := hmirrors.active opened hopened
    exact ⟨part, List.mem_append_left _ hpart, hopen⟩

/-- A roll fails, or it ends with a last segment to write to. -/
theorem roll (hmirrors : stored.Mirrors parts) (hnow : now.InCalendar)
    (hbounded : Part.stop parts ≤ Decimal.maxValue) :
    (∃ fault after, stored.roll now = (.error fault, after) ∧ after.Mirrors parts) ∨
    ∃ front last after, stored.roll now = (.ok last.segment, after) ∧
      after.Mirrors (front ++ [last]) ∧ Part.stop (front ++ [last]) = Part.stop parts := by
  have hmax := hmirrors.maxOffset_eq hbounded
  have hstart := hmirrors.maxOffset_le
  obtain ⟨made, hmake, hfolder, hmade⟩ := hmirrors.make
  rcases hmade.emptyLast?_cases hbounded with ⟨hempty, hbefore⟩ | ⟨front, last, rfl, hempty⟩
  · have hlast := hmade.lt_encode hnow hstart hbefore
    rcases createSegment_cases hfolder hmade.ascending hnow hstart hlast with
      ⟨fault, hcreate⟩ | ⟨file, dir, hcreate, hplace, hascending, hfiles, hbytes⟩
    · exact Or.inl ⟨fault, _, by simp only [StoredLog.roll, hmake, hempty, hcreate], hmade⟩
    · let segment : Segment := ⟨SegmentName.encode stored.log.maxOffset now, stored.log.maxOffset⟩
      refine Or.inr ⟨parts, ⟨segment, file⟩, ⟨stored.log.addSegment segment, dir⟩, ?_, ?_, ?_⟩
      · simp only [StoredLog.roll, hmake, hempty, hcreate, segment]
      · exact hmade.addSegment (Or.inr hplace) hascending hfiles
          (SegmentName.offset_encode hstart hnow) rfl hbytes
      · rw [Part.stop_concat, hbytes]
        exact hmax
  · exact Or.inr ⟨front, last, _, by simp only [StoredLog.roll, hmake, hempty], hmade, rfl⟩

/-- Bytes go to the last segment, or to a new one behind it if that can be made. -/
theorem activeSegment (hmirrors : stored.Mirrors parts) (rollSize : Nat) (hnow : now.InCalendar)
    (hbounded : Part.stop parts ≤ Decimal.maxValue) :
    (∃ fault after, stored.activeSegment rollSize now = (.error fault, after) ∧
      after.Mirrors parts) ∨
    ∃ front last after, stored.activeSegment rollSize now = (.ok last.segment, after) ∧
      after.Mirrors (front ++ [last]) ∧ Part.stop (front ++ [last]) = Part.stop parts := by
  have hroll := hmirrors.roll hnow hbounded
  have hlastSegment := hmirrors.getLast?_segments
  unfold StoredLog.activeSegment
  cases hlast : parts.getLast? with
  | none =>
    simp only [hlastSegment, hlast, Option.map_none]
    exact hroll
  | some last =>
    obtain ⟨front, rfl⟩ := List.getLast?_eq_some_iff.mp hlast
    have hsize := hmirrors.size_of_mem (List.mem_append_right front List.mem_cons_self)
    simp only [hlastSegment, hlast, Option.map_some, hsize]
    by_cases hfits : last.file.bytes.length ≤ rollSize
    · rw [if_pos hfits]
      exact Or.inr ⟨front, last, stored, rfl, hmirrors, rfl⟩
    · rw [if_neg hfits]
      exact hroll

/-- Parts with one name have one file. -/
theorem eq_of_name_eq (hmirrors : stored.Mirrors parts) {part other : Part} (hpart : part ∈ parts)
    (hother : other ∈ parts) (hname : part.segment.name = other.segment.name) :
    part.file = other.file := by
  have hfile := hmirrors.file_of_mem hpart
  rw [hname, hmirrors.file_of_mem hother] at hfile
  exact (Except.ok.inj hfile).symm

/-- The file that is opened for a segment is its own. -/
theorem openSegment (hmirrors : stored.Mirrors (front ++ [last])) (now : Instant) :
    ∃ active, stored.openSegment last.segment now =
        .ok (last.file.id, { stored with log := { stored.log with active } }) ∧
      Mirrors { stored with log := { stored.log with active } } (front ++ [last]) := by
  have hmem : last ∈ front ++ [last] := List.mem_append_right _ List.mem_cons_self
  have hname := hmirrors.named last hmem
  unfold StoredLog.openSegment
  cases hactive : stored.log.active.filter fun active => active.name = last.segment.name with
  | some opened =>
    obtain ⟨hopened, hsame⟩ := Option.filter_eq_some_iff.mp hactive
    have hsame : opened.name = last.segment.name := by simpa using hsame
    obtain ⟨part, hpart, hpartName, hid⟩ := hmirrors.active opened hopened
    rw [hmirrors.eq_of_name_eq hpart hmem (hpartName.trans hsame)] at hid
    exact ⟨stored.log.active, by simp [hid], hmirrors⟩
  | none =>
    have hopen := Directory.openFile_of_mem_files hmirrors.ascending hname (hmirrors.mem_files hmem)
      now
    refine ⟨some ⟨last.segment.name, last.file.id⟩, by simp only [hopen], hmirrors.usable,
      hmirrors.ascending, hmirrors.files, hmirrors.named, hmirrors.segments, hmirrors.maxOffset, ?_⟩
    intro opened hopened
    obtain rfl := Option.some.inj hopened
    exact ⟨last, hmem, rfl, rfl⟩

/-- Bytes written to the last file and counted in the log extend both alike. -/
theorem extend (hmirrors : stored.Mirrors (front ++ [last])) {data : Bytes}
    (hfits : Part.stop (front ++ [last]) + data.length ≤ Decimal.maxValue) (now : Instant) :
    ∃ grown, Mirrors { log := stored.log.addBytes data.length
                       dir := stored.dir.extend last.file.id data now } grown := by
  have hmem : last ∈ front ++ [last] := List.mem_append_right _ List.mem_cons_self
  have hfolder := Directory.place_of_mem_files (hmirrors.mem_files hmem)
  let extended : Part → Part := fun part =>
    { part with file := Items.extended last.file.id data now part.file }
  have hlong : (extended last).file.bytes.length = last.file.bytes.length + data.length := by
    simp [extended, Items.extended]
  refine ⟨(front ++ [last]).map extended, ?_⟩
  rw [Directory.Sound.entries_extend hfolder]
  refine ⟨Or.inr rfl, hmirrors.ascending.extend _ _ _, ?_, ?_, ?_, ?_, ?_⟩
  · change (stored.dir.entries.extend last.file.id data now).files = _
    rw [Items.files_extend, ← Directory.files, hmirrors.files, List.map_map, List.map_map]
    rfl
  · intro part hpart
    obtain ⟨kept, hkept, rfl⟩ := List.mem_map.mp hpart
    exact hmirrors.named kept hkept
  · rw [List.map_map]
    exact hmirrors.segments
  · have hstop := hmirrors.maxOffset_eq ((Nat.le_add_right _ _).trans hfits)
    rw [Part.stop_concat] at hstop hfits
    rw [List.map_append, List.map_singleton, Part.stop_concat, hlong, ← Nat.add_assoc]
    exact (congrArg (· + data.length) hstop).trans (Decimal.mod_eq hfits).symm
  · intro opened hopened
    obtain ⟨part, hpart, hname, hid⟩ := hmirrors.active opened hopened
    refine ⟨extended part, List.mem_map_of_mem hpart, hname, ?_⟩
    exact (Directory.Sound.id_extended _ _ _ _).trans hid

/-- An append keeps a log and its directory in agreement, also where it fails. -/
theorem append (hmirrors : stored.Mirrors parts) {data : Bytes} (rollSize : Nat)
    (hnow : now.InCalendar) (hfits : Part.stop parts + data.length ≤ Decimal.maxValue) :
    ∃ grown, (stored.append data rollSize now).2.Mirrors grown := by
  unfold StoredLog.append
  rcases hmirrors.activeSegment rollSize hnow ((Nat.le_add_right _ _).trans hfits) with
    ⟨fault, after, hactive, hafter⟩ | ⟨front, last, wide, hactive, hwide, hstop⟩
  · rw [hactive]
    exact ⟨parts, hafter⟩
  · obtain ⟨active, hopen, hopened⟩ := hwide.openSegment now
    rw [hactive]
    simp only [hopen]
    rw [← hstop] at hfits
    exact hopened.extend hfits now

end Mirrors

end StoredLog

end ReplicatedLog
