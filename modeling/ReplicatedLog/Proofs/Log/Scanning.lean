import ReplicatedLog.Proofs.Log.Layout

namespace ReplicatedLog

/-- Where the last of the parts ends. -/
def Part.stop (parts : List Part) : Nat :=
  (parts.getLast?.map fun part => part.segment.offset + part.file.bytes.length).getD 0

/-- The parts of a directory: each of its files, with the segment that its name tells. -/
structure Directory.Holds (dir : Directory) (parts : List Part) : Prop where
  listing : dir.listing = .ok dir.files
  files : dir.files = parts.map Part.entry
  named : ∀ part ∈ parts, SegmentName.offset part.segment.name = .ok part.segment.offset

namespace StoredLog

variable {dir : Directory} {parts : List Part} {segments : List Segment} {maxOffset : Nat}
  {topic : String} {stored : StoredLog}

theorem scan_of_holds (hholds : dir.Holds parts) :
    scan dir = .ok (parts.map (·.segment), Part.stop parts % (Decimal.maxValue + 1)) := by
  have hmap : dir.files.mapM (fun entry => Segment.ofName entry.1) =
      .ok (parts.map (·.segment)) := by
    rw [hholds.files]
    exact Laid.mapM_ofName hholds.named
  simp only [scan, hholds.listing, Except.mapError, bind, Except.bind, hmap]
  rw [hholds.files, List.getLast?_map, List.getLast?_map, Part.stop]
  cases parts.getLast? <;> rfl

/-- Whoever opens a directory finds a segment for each of its files. -/
theorem exists_holds_of_scan (hscan : scan dir = .ok (segments, maxOffset)) :
    ∃ parts, dir.Holds parts ∧ segments = parts.map (·.segment) ∧
      maxOffset = Part.stop parts % (Decimal.maxValue + 1) := by
  cases hlisting : dir.listing with
  | error fault => simp [scan, hlisting, Except.mapError, bind, Except.bind] at hscan
  | ok files =>
    have hfiles := Directory.files_of_listing hlisting
    cases hmap : files.mapM fun entry => Segment.ofName entry.1 with
    | error fault => simp [scan, hlisting, hmap, Except.mapError, bind, Except.bind] at hscan
    | ok found =>
      obtain ⟨parts, rfl, rfl, hnamed⟩ := exists_parts_of_mapM hmap
      have hholds : dir.Holds parts := ⟨by rw [hfiles, hlisting], hfiles, hnamed⟩
      rw [scan_of_holds hholds, Except.ok.injEq, Prod.mk.injEq] at hscan
      exact ⟨parts, hholds, hscan.1.symm, hscan.2.symm⟩

/-- A log that was opened is what was found in its directory. -/
theorem ofDirectory_eq_ok_iff :
    ofDirectory topic dir = .ok stored ↔
      ∃ parts, dir.Holds parts ∧
        stored = ⟨{
          topic
          segments := parts.map (·.segment)
          maxOffset := Part.stop parts % (Decimal.maxValue + 1) }, dir⟩ := by
  constructor
  · intro hopen
    cases hscan : scan dir with
    | error fault => simp [ofDirectory, reload, hscan, bind, Except.bind] at hopen
    | ok found =>
      obtain ⟨parts, hholds, hsegments, hstop⟩ := exists_holds_of_scan hscan
      simp only [ofDirectory, reload, hscan, bind, Except.bind, Except.ok.injEq] at hopen
      refine ⟨parts, hholds, ?_⟩
      rw [← hopen, hsegments, hstop]
  · rintro ⟨parts, hholds, rfl⟩
    simp [ofDirectory, reload, scan_of_holds hholds, bind, Except.bind]

/-- Files with names of segments are found in the order of their offsets, whatever the offsets are. -/
theorem sorted_of_holds (hascending : dir.entries.Ascending) (hholds : dir.Holds parts) :
    parts.Pairwise fun part next => part.segment.name < next.segment.name ∧
      part.segment.offset ≤ next.segment.offset := by
  have hnames := hascending.files
  rw [← Directory.files, hholds.files, List.pairwise_map] at hnames
  refine hnames.imp_of_mem fun {part next} hpart hnext hlt => ⟨hlt, ?_⟩
  by_contra hbefore
  have hgt := SegmentName.lt_of_offset_lt (hholds.named next hnext) (hholds.named part hpart)
    (not_le.mp hbefore)
  exact lt_asymm hlt hgt

/-- The last segment ends at an offset of 64 bits. -/
def Bounded (stored : StoredLog) : Prop :=
  ∀ last size, stored.log.segments.getLast? = some last → stored.dir.size last.name = .ok size →
    last.offset + size ≤ Decimal.maxValue

theorem bounded_of_nil (hnone : stored.log.segments = []) : stored.Bounded := by
  intro last size hlast
  rw [hnone] at hlast
  cases hlast

theorem Bounded.stop_le (hbounded : stored.Bounded)
    (hsegments : stored.log.segments = parts.map (·.segment))
    (hsizes : ∀ part ∈ parts, stored.dir.size part.segment.name = .ok part.file.bytes.length) :
    Part.stop parts ≤ Decimal.maxValue := by
  rw [Part.stop]
  cases hlast : parts.getLast? with
  | none => exact Nat.zero_le _
  | some last =>
    refine hbounded last.segment last.file.bytes.length ?_ (hsizes last (List.mem_of_getLast? hlast))
    rw [hsegments, List.getLast?_map, hlast, Option.map_some]

/-- A log that was just opened lies in its directory, if it is contiguous there. -/
theorem Laid.of_open (hdir : dir.Sound) (hopen : ofDirectory topic dir = .ok stored)
    (hcontiguous : stored.Contiguous) (hbounded : stored.Bounded) :
    ∃ parts, stored.Laid parts := by
  obtain ⟨parts, hholds, rfl⟩ := ofDirectory_eq_ok_iff.mp hopen
  have hsizes : ∀ part ∈ parts, dir.size part.segment.name = .ok part.file.bytes.length := by
    intro part hmem
    refine hdir.size_of_mem (hholds.named part hmem) ?_
    rw [hholds.files]
    exact List.mem_map_of_mem (f := Part.entry) hmem
  have hstop := hbounded.stop_le rfl hsizes
  have hmax := Decimal.mod_eq hstop
  refine ⟨parts, hdir, hholds.files, rfl, hholds.named, ?_, hmax.trans_le hstop,
    fun file hactive => by cases hactive⟩
  dsimp only
  rw [hmax]
  cases parts with
  | nil => exact hmax
  | cons part rest =>
    have hadjacent : (part :: rest).IsChain fun part next =>
        part.segment.offset + part.file.bytes.length = next.segment.offset := by
      have hchain := List.isChain_map _ |>.mp hcontiguous.adjacent
      refine hchain.imp_of_mem_imp fun part next hmem _ hnext => ?_
      obtain ⟨size, hsize, hnext⟩ := hnext
      rw [hsizes part hmem] at hsize
      rwa [Except.ok.inj hsize]
    have hascending : (part :: rest).Pairwise fun part next =>
        part.segment.offset < next.segment.offset := by
      simpa only [List.pairwise_map] using hcontiguous.ascending
    obtain ⟨stop, hchained⟩ := Part.chained_of_adjacent hascending hadjacent
    obtain ⟨last, hlast⟩ := Option.ne_none_iff_exists'.mp
      (mt List.getLast?_eq_none_iff.mp (List.cons_ne_nil part rest))
    have hend := hchained.stop_of_getLast? hlast
    simpa [TopicLog.firstOffset, Part.stop, hlast, hend] using hchained

end StoredLog

end ReplicatedLog
