import Mathlib.Data.List.Chain
import Mathlib.Data.List.Nodup
import ReplicatedLog.Log.Append
import ReplicatedLog.Proofs.Disk.Directory

namespace ReplicatedLog

/-- A segment with its file. -/
structure Part where
  segment : Segment
  file : File

namespace Part

/-- The file as the directory lists it. -/
def entry (part : Part) : String × File :=
  (part.segment.name, part.file)

/-- The bytes of parts back to back. -/
def contents (parts : List Part) : Bytes :=
  parts.flatMap (·.file.bytes)

/-- Parts follow each other without a gap from `start` to `stop`. Only the last may be empty. -/
def Chained : (start : Nat) → List Part → (stop : Nat) → Prop
  | start, [], stop => start = stop
  | start, part :: rest, stop =>
    part.segment.offset = start ∧ (rest ≠ [] → part.file.bytes ≠ []) ∧
      Chained (start + part.file.bytes.length) rest stop

@[simp] theorem contents_nil : contents [] = [] := rfl

@[simp] theorem contents_cons (part : Part) (rest : List Part) :
    contents (part :: rest) = part.file.bytes ++ contents rest := rfl

@[simp] theorem contents_append (front back : List Part) :
    contents (front ++ back) = contents front ++ contents back :=
  List.flatMap_append

variable {start stop : Nat} {part : Part} {parts front rest : List Part}

theorem Chained.stop_eq (hchained : Chained start parts stop) :
    stop = start + (contents parts).length := by
  induction parts generalizing start with
  | nil => simpa [Chained] using hchained.symm
  | cons part rest ih =>
    rw [ih hchained.2.2, contents_cons, List.length_append, Nat.add_assoc]

theorem Chained.start_le_stop (hchained : Chained start parts stop) : start ≤ stop := by
  rw [hchained.stop_eq]
  exact Nat.le_add_right _ _

/-- Every part lies between the two ends. -/
theorem Chained.bounds (hchained : Chained start parts stop) (hmem : part ∈ parts) :
    start ≤ part.segment.offset ∧ part.segment.offset + part.file.bytes.length ≤ stop := by
  induction parts generalizing start with
  | nil => cases hmem
  | cons first rest ih =>
    obtain ⟨hoffset, -, hrest⟩ := hchained
    rcases List.mem_cons.mp hmem with rfl | hmem
    · exact ⟨hoffset.ge, hoffset ▸ hrest.start_le_stop⟩
    · obtain ⟨hstart, hstop⟩ := ih hrest hmem
      exact ⟨(Nat.le_add_right _ _).trans hstart, hstop⟩

theorem Chained.ascending (hchained : Chained start parts stop) :
    parts.Pairwise fun part next => part.segment.offset < next.segment.offset := by
  induction parts generalizing start with
  | nil => exact List.Pairwise.nil
  | cons first rest ih =>
    obtain ⟨hoffset, hfull, hrest⟩ := hchained
    refine List.pairwise_cons.mpr ⟨fun part hmem => ?_, ih hrest⟩
    have hpos := List.length_pos_iff.mpr (hfull (List.ne_nil_of_mem hmem))
    have hle := (hrest.bounds hmem).1
    omega

/-- Each part ends where the next one starts. -/
theorem Chained.adjacent (hchained : Chained start parts stop) :
    parts.IsChain fun part next =>
      part.segment.offset + part.file.bytes.length = next.segment.offset := by
  induction parts generalizing start with
  | nil => exact List.IsChain.nil
  | cons first rest ih =>
    obtain ⟨hoffset, -, hrest⟩ := hchained
    have htail := ih hrest
    cases rest with
    | nil => exact List.IsChain.singleton _
    | cons next others =>
      refine List.isChain_cons_cons.mpr ⟨?_, htail⟩
      rw [hoffset, hrest.1]

theorem Chained.stop_of_getLast? (hchained : Chained start parts stop)
    (hlast : parts.getLast? = some part) :
    part.segment.offset + part.file.bytes.length = stop := by
  induction parts generalizing start with
  | nil => cases hlast
  | cons first rest ih =>
    obtain ⟨hoffset, -, hrest⟩ := hchained
    cases rest with
    | nil =>
      obtain rfl : first = part := by simpa using hlast
      rw [hoffset]
      exact hrest
    | cons next others => exact ih hrest (by simpa using hlast)

/-- A part starts behind all bytes of the parts in front of it. -/
theorem Chained.offset_of_split (hchained : Chained start (front ++ part :: rest) stop) :
    part.segment.offset = start + (contents front).length := by
  induction front generalizing start with
  | nil => exact hchained.1
  | cons first others ih =>
    rw [ih hchained.2.2, contents_cons, List.length_append, Nat.add_assoc]

/-- Ascending parts that end where the next ones start are chained. -/
theorem chained_of_adjacent
    (hascending : (part :: rest).Pairwise fun part next => part.segment.offset < next.segment.offset)
    (hadjacent : (part :: rest).IsChain fun part next =>
      part.segment.offset + part.file.bytes.length = next.segment.offset) :
    ∃ stop, Chained part.segment.offset (part :: rest) stop := by
  induction rest generalizing part with
  | nil => exact ⟨_, rfl, by simp, rfl⟩
  | cons next others ih =>
    obtain ⟨hnext, hothers⟩ := List.isChain_cons_cons.mp hadjacent
    obtain ⟨hfirst, htail⟩ := List.pairwise_cons.mp hascending
    obtain ⟨stop, hstop⟩ := ih htail hothers
    refine ⟨stop, rfl, fun _ hempty => ?_, hnext ▸ hstop⟩
    have hlt := hfirst next List.mem_cons_self
    rw [hempty, List.length_nil] at hnext
    omega

/-- A part that starts at the end joins the others, if none of them is empty. -/
theorem Chained.concat (hchained : Chained start parts stop)
    (hbefore : ∀ part ∈ parts, part.segment.offset < stop) (hoffset : part.segment.offset = stop) :
    Chained start (parts ++ [part]) (stop + part.file.bytes.length) := by
  induction parts generalizing start with
  | nil =>
    obtain rfl : start = stop := hchained
    exact ⟨hoffset, by simp, rfl⟩
  | cons first rest ih =>
    obtain ⟨hfirst, hfull, hrest⟩ := hchained
    refine ⟨hfirst, fun _ => ?_, ih hrest fun part hmem => hbefore part (List.mem_cons_of_mem _ hmem)⟩
    cases rest with
    | nil =>
      intro hempty
      have hlt := hbefore first List.mem_cons_self
      rw [hempty] at hrest
      have hstop : start + 0 = stop := hrest
      omega
    | cons next others => exact hfull (List.cons_ne_nil _ _)

/-- Bytes added to the file of the last part move the end. -/
theorem Chained.extend_last {data : Bytes} {file : File}
    (hchained : Chained start (front ++ [part]) stop)
    (hfile : file.bytes = part.file.bytes ++ data) :
    Chained start (front ++ [{ part with file }]) (stop + data.length) := by
  induction front generalizing start with
  | nil =>
    obtain ⟨hoffset, -, hstop⟩ := hchained
    obtain rfl : start + part.file.bytes.length = stop := hstop
    refine ⟨hoffset, by simp, ?_⟩
    simp only [Chained, hfile, List.length_append, Nat.add_assoc]
  | cons first rest ih =>
    obtain ⟨hoffset, hfull, hrest⟩ := hchained
    refine ⟨hoffset, fun _ => hfull ?_, ih hrest⟩
    exact List.append_ne_nil_of_right_ne_nil _ (List.cons_ne_nil _ _)

end Part

namespace StoredLog

/-- The log knows exactly the files of its directory, they are chained from its first offset to its
    end, and the file that is open for appending is one of them unless its name is outdated. -/
structure Laid (stored : StoredLog) (parts : List Part) : Prop where
  sound : stored.dir.Sound
  files : stored.dir.files = parts.map Part.entry
  segments : stored.log.segments = parts.map (·.segment)
  named : ∀ part ∈ parts, SegmentName.offset part.segment.name = .ok part.segment.offset
  chained : Part.Chained stored.log.firstOffset parts stored.log.maxOffset
  bounded : stored.log.maxOffset ≤ Decimal.maxValue
  active : ∀ file, stored.log.active = some file →
    (∃ part ∈ parts, part.segment.name = file.name ∧ part.file.id = file.file) ∨
      ∃ start, SegmentName.offset file.name = .ok start ∧ start < stored.log.firstOffset

/-- The offsets of the segments ascend, and each ends where the next one starts. -/
structure Contiguous (stored : StoredLog) : Prop where
  ascending : stored.log.segments.Pairwise fun segment next => segment.offset < next.offset
  adjacent : stored.log.segments.IsChain fun segment next =>
    ∃ size, stored.dir.size segment.name = .ok size ∧ segment.offset + size = next.offset

/-- A contiguous log that ends with its last segment, and that is found in its directory by whoever
    opens it again. -/
structure Consistent (stored : StoredLog) : Prop extends Contiguous stored where
  ended : ∀ last, stored.log.segments.getLast? = some last →
    ∃ size, stored.dir.size last.name = .ok size ∧ stored.log.maxOffset = last.offset + size
  reopened : ∃ second, ofDirectory stored.log.topic stored.dir = .ok second ∧
    second.log.segments = stored.log.segments ∧
    (stored.log.segments ≠ [] → second.log.maxOffset = stored.log.maxOffset)

variable {stored : StoredLog} {parts : List Part} {part : Part}

namespace Laid

/-- The log lies in any directory that holds the same files. -/
theorem of_files_eq (hlaid : stored.Laid parts) {dir : Directory} (hdir : dir.Sound)
    (hfiles : dir.files = stored.dir.files) : Laid { stored with dir } parts :=
  ⟨hdir, hfiles.trans hlaid.files, hlaid.segments, hlaid.named, hlaid.chained, hlaid.bounded,
    hlaid.active⟩

/-- Who reads the log does not matter. -/
theorem of_log_eq (hlaid : stored.Laid parts) {log : TopicLog}
    (hsegments : log.segments = stored.log.segments)
    (hmax : log.maxOffset = stored.log.maxOffset) (hactive : log.active = stored.log.active) :
    Laid { stored with log } parts := by
  have hfirst : log.firstOffset = stored.log.firstOffset := by
    unfold TopicLog.firstOffset
    rw [hsegments, hmax]
  refine ⟨hlaid.sound, hlaid.files, hsegments.trans hlaid.segments, hlaid.named, ?_, ?_, ?_⟩
  · rw [hfirst, hmax]
    exact hlaid.chained
  · rw [hmax]
    exact hlaid.bounded
  · intro opened hopened
    rw [hfirst]
    exact hlaid.active opened (hactive ▸ hopened)

theorem mem_files (hlaid : stored.Laid parts) (hmem : part ∈ parts) :
    (part.segment.name, part.file) ∈ stored.dir.files := by
  rw [hlaid.files]
  exact List.mem_map_of_mem (f := Part.entry) hmem

theorem size_of_mem (hlaid : stored.Laid parts) (hmem : part ∈ parts) :
    stored.dir.size part.segment.name = .ok part.file.bytes.length :=
  hlaid.sound.size_of_mem (hlaid.named part hmem) (hlaid.mem_files hmem)

theorem size?_of_mem (hlaid : stored.Laid parts) (hmem : part ∈ parts) :
    stored.dir.size? part.segment.name = .ok (some part.file.bytes.length) :=
  hlaid.sound.size?_of_mem (hlaid.named part hmem) (hlaid.mem_files hmem)

/-- The parts of segments in a row are in a row. -/
theorem exists_split (hlaid : stored.Laid parts) {passed rest : List Segment} {current : Segment}
    (hsegments : stored.log.segments = passed ++ current :: rest) :
    ∃ front part back, parts = front ++ part :: back ∧ part.segment = current ∧
      passed = front.map (·.segment) ∧ rest = back.map (·.segment) := by
  rw [hlaid.segments] at hsegments
  obtain ⟨front, others, rfl, rfl, hothers⟩ := List.map_eq_append_iff.mp hsegments
  obtain ⟨part, back, rfl, rfl, rfl⟩ := List.map_eq_cons_iff.mp hothers
  exact ⟨front, part, back, rfl, rfl, rfl, rfl⟩

/-- No two segments share a name. -/
theorem eq_of_name_eq (hlaid : stored.Laid parts) {other : Part} (hmem : part ∈ parts)
    (hother : other ∈ parts) (hname : part.segment.name = other.segment.name) : part = other := by
  have hoffset : part.segment.offset = other.segment.offset := by
    have hfirst := hlaid.named part hmem
    rw [hname, hlaid.named other hother] at hfirst
    exact (Except.ok.inj hfirst).symm
  have hnodup : (parts.map (·.segment.offset)).Nodup :=
    List.pairwise_map.mpr (hlaid.chained.ascending.imp fun hlt => hlt.ne)
  exact List.inj_on_of_nodup_map hnodup hmem hother hoffset

theorem contiguous (hlaid : stored.Laid parts) : stored.Contiguous where
  ascending := by
    rw [hlaid.segments]
    exact List.pairwise_map.mpr hlaid.chained.ascending
  adjacent := by
    rw [hlaid.segments, List.isChain_map]
    refine hlaid.chained.adjacent.imp_of_mem_imp fun part next hmem _ hnext => ?_
    exact ⟨_, hlaid.size_of_mem hmem, hnext⟩

theorem getLast?_segments (hlaid : stored.Laid parts) :
    stored.log.segments.getLast? = parts.getLast?.map (·.segment) := by
  rw [hlaid.segments, List.getLast?_map]

theorem mapM_ofName (hnamed : ∀ part ∈ parts,
    SegmentName.offset part.segment.name = .ok part.segment.offset) :
    (parts.map Part.entry).mapM (fun entry => Segment.ofName entry.1) =
      .ok (parts.map (·.segment)) := by
  induction parts with
  | nil => rfl
  | cons part rest ih =>
    have hfirst : Segment.ofName part.entry.1 = .ok part.segment :=
      Segment.ofName_eq_ok_iff.mpr ⟨rfl, hnamed part List.mem_cons_self⟩
    have hrest := ih fun part hmem => hnamed part (List.mem_cons_of_mem _ hmem)
    simp [List.mapM_cons, hfirst, hrest, bind, Except.bind, pure, Except.pure]

/-- Reading the directory again finds the segments, and the end of the log if there are any. -/
theorem scan_eq (hlaid : stored.Laid parts) :
    scan stored.dir = .ok (stored.log.segments,
      if stored.log.segments = [] then 0 else stored.log.maxOffset) := by
  have hmap := mapM_ofName hlaid.named
  rw [← hlaid.files, ← hlaid.segments] at hmap
  simp only [scan, hlaid.sound.listing_eq, Except.mapError, bind, Except.bind, hmap]
  rw [hlaid.getLast?_segments, hlaid.files, List.getLast?_map, Option.map_map, Option.map_map]
  cases hlast : parts.getLast? with
  | none => simp [hlaid.segments, List.getLast?_eq_none_iff.mp hlast]
  | some part =>
    have hne : parts ≠ [] := by
      rintro rfl
      cases hlast
    have hstop := hlaid.chained.stop_of_getLast? hlast
    simp [hlaid.segments, hne, Part.entry, hstop, Decimal.mod_eq hlaid.bounded]

/-- The log that whoever opens the directory finds. -/
theorem ofDirectory_eq (hlaid : stored.Laid parts) (topic : String) :
    ofDirectory topic stored.dir = .ok
      { log := {
          topic
          segments := stored.log.segments
          maxOffset := if stored.log.segments = [] then 0 else stored.log.maxOffset }
        dir := stored.dir } := by
  rw [ofDirectory, reload, hlaid.scan_eq]
  rfl

theorem consistent (hlaid : stored.Laid parts) : stored.Consistent where
  toContiguous := hlaid.contiguous
  ended last hlast := by
    rw [hlaid.getLast?_segments, Option.map_eq_some_iff] at hlast
    obtain ⟨part, hpart, rfl⟩ := hlast
    exact ⟨_, hlaid.size_of_mem (List.mem_of_getLast? hpart),
      (hlaid.chained.stop_of_getLast? hpart).symm⟩
  reopened := by
    exact ⟨_, hlaid.ofDirectory_eq _, rfl, fun hne => if_neg hne⟩

end Laid

theorem topic_of_ofDirectory {topic : String} {dir : Directory} {stored : StoredLog}
    (hopen : ofDirectory topic dir = .ok stored) :
    stored.log.topic = topic ∧ stored.dir = dir := by
  cases hsegments : scan dir with
  | error fault => simp [ofDirectory, reload, hsegments, bind, Except.bind] at hopen
  | ok found =>
    simp only [ofDirectory, reload, hsegments, bind, Except.bind, Except.ok.injEq] at hopen
    subst hopen
    exact ⟨rfl, rfl⟩

/-- Nobody reads a log that was just opened. -/
theorem readers_of_ofDirectory {topic : String} {dir : Directory} {stored : StoredLog}
    (hopen : ofDirectory topic dir = .ok stored) : stored.log.readers = [] := by
  cases hsegments : scan dir with
  | error fault => simp [ofDirectory, reload, hsegments, bind, Except.bind] at hopen
  | ok found =>
    simp only [ofDirectory, reload, hsegments, bind, Except.bind, Except.ok.injEq] at hopen
    subst hopen
    rfl

theorem exists_parts_of_mapM {files : List (String × File)} {segments : List Segment}
    (hmap : files.mapM (fun entry => Segment.ofName entry.1) = .ok segments) :
    ∃ parts : List Part, files = parts.map Part.entry ∧ segments = parts.map (·.segment) ∧
      ∀ part ∈ parts, SegmentName.offset part.segment.name = .ok part.segment.offset := by
  induction files generalizing segments with
  | nil =>
    obtain rfl : [] = segments := by simpa [pure, Except.pure] using hmap
    exact ⟨[], rfl, rfl, by simp⟩
  | cons entry rest ih =>
    cases hfirst : Segment.ofName entry.1 with
    | error fault => simp [List.mapM_cons, hfirst, bind, Except.bind] at hmap
    | ok segment =>
      cases hrest : rest.mapM (fun entry => Segment.ofName entry.1) with
      | error fault => simp [List.mapM_cons, hfirst, hrest, bind, Except.bind] at hmap
      | ok others =>
        obtain rfl : segment :: others = segments := by
          simpa [List.mapM_cons, hfirst, hrest, bind, Except.bind, pure, Except.pure] using hmap
        obtain ⟨parts, rfl, rfl, hnamed⟩ := ih hrest
        obtain ⟨hname, hoffset⟩ := Segment.ofName_eq_ok_iff.mp hfirst
        refine ⟨⟨segment, entry.2⟩ :: parts, ?_, rfl, ?_⟩
        · simp [Part.entry, hname]
        · intro part hmem
          rcases List.mem_cons.mp hmem with rfl | hmem
          · rw [hname]
            exact hoffset
          · exact hnamed part hmem

end StoredLog

end ReplicatedLog
