import ReplicatedLog.Proofs.Log.Scanning
import ReplicatedLog.Proofs.Log.Summary

namespace ReplicatedLog

/-- The file of a segment ends where the next one starts. -/
def StoredLog.Adjacent (stored : StoredLog) (segment next : Segment) : Prop :=
  ∃ size, stored.dir.size segment.name = .ok size ∧ segment.offset + size = next.offset

/-- The segments of a log hold `bytes` back to back, and these are `blocks` of readable entries from the
    start to the end. -/
structure StoredLog.MadeOf (stored : StoredLog) (bytes : Bytes) (blocks : List Block) : Prop where
  bytes_eq : stored.bytes = .ok bytes
  read : ∃ rest, Block.readAll bytes = (blocks, none, rest)
  length_eq : (blocks.map Block.frameLength).sum = bytes.length
  readable : ∀ block ∈ blocks, block.entries.2 = none

/-- A checksum that takes in a whole log: the segments line up, and all their bytes are summed up. -/
structure Checksum.Covers (sum : Checksum) (stored : StoredLog) : Prop where
  adjacent : stored.log.segments.IsChain stored.Adjacent
  whole : ∃ bytes blocks, stored.MadeOf bytes blocks ∧ sum = ofBlocks blocks bytes.length

/-- The file of a segment is as long as the way to the next one, or it is gone. -/
def Segment.Joined (dir : Directory) (segment next : Segment) : Prop :=
  ∃ size, dir.size? segment.name = .ok size ∧
    size.getD (next.offset - segment.offset) = next.offset - segment.offset

namespace Cursor

variable {cursor moved : Cursor} {dir : Directory} {topic : String} {length : Nat}

/-- Segments were left behind one after the other, each joined to the next. -/
inductive Crosses (dir : Directory) : List Segment → List Segment → Prop
  | stay (segments : List Segment) : Crosses dir segments segments
  | cross {segment next : Segment} {rest left : List Segment} (hjoined : segment.Joined dir next)
      (hrest : Crosses dir (next :: rest) left) : Crosses dir (segment :: next :: rest) left

theorem Crosses.trans {segments middle left : List Segment} (hfirst : Crosses dir segments middle)
    (hsecond : Crosses dir middle left) : Crosses dir segments left := by
  induction hfirst with
  | stay => exact hsecond
  | cross hjoined _ ih => exact .cross hjoined (ih hsecond)

theorem Crosses.suffix {segments left : List Segment} (hcrosses : Crosses dir segments left) :
    left <:+ segments := by
  induction hcrosses with
  | stay => exact List.suffix_rfl
  | cross _ _ ih => exact ih.trans (List.suffix_cons _ _)

/-- What holds of the segments that were left behind and of those that are left holds of all. -/
theorem Crosses.isChain {R S : Segment → Segment → Prop} {segments left : List Segment}
    (hcrosses : Crosses dir segments left) (hall : segments.IsChain S) (hleft : left.IsChain R)
    (hjoined : ∀ segment next, S segment next → segment.Joined dir next → R segment next) :
    segments.IsChain R := by
  induction hcrosses with
  | stay => exact hleft
  | cross hjoin _ ih =>
    obtain ⟨hfirst, hrest⟩ := List.isChain_cons_cons.mp hall
    exact List.isChain_cons_cons.mpr ⟨hjoined _ _ hfirst hjoin, ih hrest hleft⟩

/-- A cursor moved over `length` bytes, and knows where its current segment ends. -/
structure Walked (dir : Directory) (cursor moved : Cursor) (length : Nat) : Prop where
  crosses : Crosses dir cursor.segments moved.segments
  offset : moved.offset = cursor.offset + length
  maxOffset : moved.maxOffset = cursor.maxOffset
  boundary : moved.boundary = segmentEnd moved.segments moved.maxOffset

/-- Out of one segment a cursor moves only into the next one, which has to start at the cursor. -/
theorem walked_of_nextSegment (hnext : nextSegment topic dir cursor = (.ok (), moved))
    (hmore : 1 < cursor.segments.length) :
    Walked dir cursor moved 0 ∧ ∃ first rest, moved.segments = first :: rest ∧
      first.offset = moved.offset := by
  obtain ⟨current, next, rest, hsegments⟩ := exists_next_of_length hmore
  simp only [nextSegment, hsegments] at hnext
  by_cases hplace : next.offset ≠ cursor.offset
  · rw [if_pos hplace] at hnext
    cases hnext
  · rw [if_neg hplace] at hnext
    cases hsize : dir.size? current.name with
    | error fault =>
      rw [hsize] at hnext
      cases hnext
    | ok size =>
      rw [hsize] at hnext
      dsimp only at hnext
      by_cases hlong : size.getD (next.offset - current.offset) ≠ next.offset - current.offset
      · rw [if_pos hlong] at hnext
        cases hnext
      · rw [if_neg hlong] at hnext
        obtain rfl := (Prod.mk.inj hnext).2
        refine ⟨⟨?_, rfl, rfl, rfl⟩, next, rest, rfl, not_not.mp hplace⟩
        rw [hsegments]
        exact .cross ⟨size, hsize, not_not.mp hlong⟩ (.stay _)

theorem walked_of_walk (hwalk : walk topic dir cursor length = (.ok (), moved))
    (hboundary : cursor.boundary = segmentEnd cursor.segments cursor.maxOffset) :
    Walked dir cursor moved length := by
  fun_induction walk topic dir cursor length with
  | case1 cursor length step skipped left hdone =>
    obtain rfl := (Prod.mk.inj hwalk).2
    exact ⟨.stay _, by simp only [skipped, skip]; omega, rfl, hboundary⟩
  | case2 => cases hwalk
  | case3 => cases hwalk
  | case4 cursor length step skipped left hleft hlong next hnext _ ih =>
    obtain ⟨hwalked, -⟩ := walked_of_nextSegment hnext (not_le.mp hlong)
    have hrest := ih hwalk hwalked.boundary
    have hplace : skipped.offset = cursor.offset + step := rfl
    refine ⟨hwalked.crosses.trans hrest.crosses, ?_, hrest.maxOffset.trans hwalked.maxOffset,
      hrest.boundary⟩
    rw [hrest.offset, hwalked.offset]
    omega

/-- Consuming moves a cursor over the bytes. Behind them it stands in a segment with more bytes, in
    the last segment, or at the very start of a segment. -/
theorem walked_of_consume (hconsume : consume topic dir cursor length = (.ok (), moved))
    (hboundary : cursor.boundary = segmentEnd cursor.segments cursor.maxOffset) :
    Walked dir cursor moved length ∧
      (0 < moved.available ∨ moved.segments.length ≤ 1 ∨
        ∃ first rest, moved.segments = first :: rest ∧ first.offset = moved.offset) := by
  unfold consume at hconsume
  by_cases hbeyond : cursor.maxOffset < cursor.offset + length
  · rw [if_pos hbeyond] at hconsume
    cases hconsume
  · rw [if_neg hbeyond] at hconsume
    rcases hwalk : walk topic dir cursor length with ⟨fault | _, walked⟩
    · rw [hwalk] at hconsume
      cases hconsume
    · have hwalked := walked_of_walk hwalk hboundary
      rw [hwalk] at hconsume
      dsimp only at hconsume
      by_cases hnext : walked.available = 0 ∧ 1 < walked.segments.length
      · rw [if_pos hnext] at hconsume
        obtain ⟨hlast, hstart⟩ := walked_of_nextSegment hconsume hnext.2
        refine ⟨⟨hwalked.crosses.trans hlast.crosses, ?_, hlast.maxOffset.trans hwalked.maxOffset,
          hlast.boundary⟩, Or.inr (Or.inr hstart)⟩
        rw [hlast.offset, hwalked.offset, Nat.add_zero]
      · rw [if_neg hnext] at hconsume
        obtain rfl := (Prod.mk.inj hconsume).2
        exact ⟨hwalked, by omega⟩

/-- Inside its last segment a cursor just skips bytes. -/
theorem consume_last (hlast : cursor.segments.length ≤ 1) (hlength : length ≤ cursor.available)
    (hend : cursor.offset + length ≤ cursor.maxOffset) (topic : String) (dir : Directory) :
    consume topic dir cursor length = (.ok (), cursor.skip length) := by
  have hmore : ¬ ((cursor.skip length).available = 0 ∧ 1 < (cursor.skip length).segments.length) :=
    fun hmore => hlast.not_gt hmore.2
  simp only [consume, walk_eq hlength topic dir, if_neg hend.not_gt, if_neg hmore]

/-- At the start of its last segment a cursor has the file of it before it. -/
theorem remaining_last {segment : Segment} {file : File} (hsegments : cursor.segments = [segment])
    (hposition : cursor.position = 0) (hfile : dir.file segment.name = .ok file)
    (hend : cursor.offset + file.bytes.length = cursor.maxOffset) :
    cursor.remaining dir = (file.bytes, none) := by
  have hfiles : ∀ part ∈ [(⟨segment, file⟩ : Part)], dir.file part.segment.name = .ok part.file :=
    List.forall_mem_singleton.mpr hfile
  have hchain := chain_eq hfiles (fun _ _ => Nat.zero_le _) (cursor.maxOffset - cursor.offset)
  have hcontents : Part.contents [⟨segment, file⟩] = file.bytes := by simp [Part.contents]
  rw [hcontents, List.drop_zero, List.take_of_length_le (by omega)] at hchain
  rw [remaining, hsegments, hposition]
  exact hchain

/-- What holds where segments are passed over for an offset, and of the segments from there on, holds of
    all. -/
theorem isChain_of_segmentsFrom {R S : Segment → Segment → Prop} {offset : Nat}
    {segments : List Segment} (hall : segments.IsChain S)
    (hfrom : (segmentsFrom offset segments).IsChain R)
    (hpassed : ∀ segment next, S segment next → next.offset ≤ offset → R segment next) :
    segments.IsChain R := by
  fun_induction segmentsFrom offset segments with
  | case1 first next rest hle ih =>
    obtain ⟨hfirst, hrest⟩ := List.isChain_cons_cons.mp hall
    exact List.isChain_cons_cons.mpr ⟨hpassed first next hfirst hle, ih hrest hfrom⟩
  | case2 => exact hfrom
  | case3 => exact hfrom

end Cursor

/-- Parts that end where the next ones start reach from the first offset to the end of the last. -/
theorem Part.length_contents_of_adjacent {part last : Part} {rest : List Part}
    (hadjacent : (part :: rest).IsChain fun part next =>
      part.segment.offset + part.file.bytes.length = next.segment.offset)
    (hlast : (part :: rest).getLast? = some last) :
    part.segment.offset + (Part.contents (part :: rest)).length =
      last.segment.offset + last.file.bytes.length := by
  induction rest generalizing part with
  | nil =>
    obtain rfl : part = last := by simpa using hlast
    simp
  | cons next others ih =>
    obtain ⟨hnext, hrest⟩ := List.isChain_cons_cons.mp hadjacent
    have htail := ih hrest (by simpa using hlast)
    rw [Part.contents_cons, List.length_append, ← Nat.add_assoc, hnext, htail]

namespace StoredLog

variable {stored : StoredLog} {parts front rest : List Part} {part : Part} {topic : String}
  {dir : Directory} {sum : Checksum}

/-- A log as it was found in its directory: one segment for each file, in the order of the offsets. -/
structure Scanned (stored : StoredLog) (parts : List Part) : Prop where
  segments : stored.log.segments = parts.map (·.segment)
  files : ∀ part ∈ parts, stored.dir.file part.segment.name = .ok part.file
  sorted : parts.Pairwise fun part next => part.segment.offset ≤ next.segment.offset
  maxOffset : stored.log.maxOffset = Part.stop parts % (Decimal.maxValue + 1)

/-- Whatever a directory holds, what is opened is what was found in it. -/
theorem exists_scanned (hascending : dir.entries.Ascending)
    (hopen : ofDirectory topic dir = .ok stored) : ∃ parts, stored.Scanned parts := by
  obtain ⟨parts, hholds, rfl⟩ := ofDirectory_eq_ok_iff.mp hopen
  refine ⟨parts, rfl, fun part hpart => ?_, (sorted_of_holds hascending hholds).imp And.right, rfl⟩
  refine Directory.file_of_mem_files hascending (hholds.named part hpart) ?_
  rw [hholds.files]
  exact List.mem_map_of_mem (f := Part.entry) hpart

/-- Of the segments that share the first or the last offset of the log, all but the last one are
    empty. -/
def Unrepeated (stored : StoredLog) : Prop :=
  stored.log.segments.IsChain fun segment next => segment.offset = next.offset →
    segment.offset = stored.log.firstOffset ∨ segment.offset = stored.log.maxOffset →
      stored.dir.size segment.name = .ok 0

/-- What is known of two segments in a row of a log as it was found. -/
structure InOrder (stored : StoredLog) (segment next : Segment) : Prop where
  sized : ∃ size, stored.dir.size segment.name = .ok size
  le : segment.offset ≤ next.offset

/-- What else is known of them where the ends of the log are not repeated. -/
structure Neighbours (stored : StoredLog) (segment next : Segment) : Prop where
  le : segment.offset ≤ next.offset
  firstOffset_le : stored.log.firstOffset ≤ segment.offset
  le_maxOffset : next.offset ≤ stored.log.maxOffset
  empty : segment.offset = next.offset →
    segment.offset = stored.log.firstOffset ∨ segment.offset = stored.log.maxOffset →
      stored.dir.size segment.name = .ok 0

/-- On its way to the end of the log a reader leaves `segment` if that one starts before the end and the
    next one not behind it. Then `segment` ends where the next one starts. -/
def Lined (stored : StoredLog) (segment next : Segment) : Prop :=
  segment.offset < stored.log.maxOffset → next.offset ≤ stored.log.maxOffset →
    stored.Adjacent segment next

/-- A reader at the first offset is shown `list` up to the end of the log, and the segments that it
    leaves on the way line up. -/
structure Reads (stored : StoredLog) (list : List Bytes) : Prop where
  shown : stored.entries = (list, .ok true)
  lined : (Cursor.segmentsFrom stored.log.firstOffset stored.log.segments).IsChain stored.Lined

section Pairs

variable {segment next : Segment}

/-- A segment ends where the next one starts if it is joined to it. -/
theorem InOrder.adjacent_of_joined (hinOrder : stored.InOrder segment next)
    (hjoined : segment.Joined stored.dir next) : stored.Adjacent segment next := by
  obtain ⟨length, hlength⟩ := hinOrder.sized
  obtain ⟨size, hsize, hlong⟩ := hjoined
  have hle := hinOrder.le
  rw [Directory.size?_of_size hlength, Except.ok.injEq] at hsize
  subst hsize
  exact ⟨length, hlength, by rw [Option.getD_some] at hlong; omega⟩

theorem Neighbours.adjacent_of_repeated (hneighbours : stored.Neighbours segment next)
    (hsame : segment.offset = next.offset)
    (hend : segment.offset = stored.log.firstOffset ∨ segment.offset = stored.log.maxOffset) :
    stored.Adjacent segment next :=
  ⟨0, hneighbours.empty hsame hend, hsame⟩

/-- Behind the end of the log nothing is left on the way there. -/
theorem isChain_lined_of_le {segments : List Segment}
    (hbehind : ∀ segment ∈ segments, stored.log.maxOffset ≤ segment.offset) :
    segments.IsChain stored.Lined := by
  refine List.isChain_iff_forall_rel_of_append_cons_cons.mpr ?_
  intro segment next front back hsplit hbefore
  exact absurd hbefore (not_lt.mpr (hbehind segment (by simp [hsplit])))

end Pairs

namespace Scanned

theorem size_of_mem (hscanned : stored.Scanned parts) {part : Part} (hmem : part ∈ parts) :
    stored.dir.size part.segment.name = .ok part.file.bytes.length := by
  simp [Directory.size, hscanned.files part hmem, bind, Except.bind]

/-- The log ends where its last file does, if that is an offset. -/
theorem ended (hscanned : stored.Scanned parts) (hbounded : stored.Bounded) {last : Part}
    (hlast : parts.getLast? = some last) :
    last.segment.offset + last.file.bytes.length = stored.log.maxOffset := by
  have hstop := hbounded.stop_le hscanned.segments fun part hpart => hscanned.size_of_mem hpart
  rw [hscanned.maxOffset, Decimal.mod_eq hstop, Part.stop, hlast, Option.map_some, Option.getD_some]

/-- Every segment starts between the first offset and the end of the log. -/
theorem bounds (hscanned : stored.Scanned parts) (hbounded : stored.Bounded) {part : Part}
    (hmem : part ∈ parts) :
    stored.log.firstOffset ≤ part.segment.offset ∧
      part.segment.offset ≤ stored.log.maxOffset := by
  obtain ⟨first, rest, rfl⟩ := List.exists_cons_of_ne_nil (List.ne_nil_of_mem hmem)
  obtain ⟨last, hlast⟩ := Option.ne_none_iff_exists'.mp
    (mt List.getLast?_eq_none_iff.mp (List.cons_ne_nil first rest))
  obtain ⟨front, hsplit⟩ := List.getLast?_eq_some_iff.mp hlast
  have hsorted := hscanned.sorted
  have hend := hscanned.ended hbounded hlast
  rw [TopicLog.firstOffset_of_cons hscanned.segments]
  constructor
  · rcases List.mem_cons.mp hmem with rfl | hrest
    · exact le_rfl
    · exact (List.pairwise_cons.mp hsorted).1 part hrest
  · rw [hsplit] at hsorted hmem
    rcases List.mem_append.mp hmem with hfront | hrest
    · have hle := (List.pairwise_append.mp hsorted).2.2 part hfront last List.mem_cons_self
      omega
    · rw [List.mem_singleton.mp hrest]
      omega

theorem inOrder (hscanned : stored.Scanned parts) : stored.log.segments.IsChain stored.InOrder := by
  rw [hscanned.segments, List.isChain_map]
  refine (List.Pairwise.isChain hscanned.sorted).imp_of_mem_imp fun part next hpart _ hle => ?_
  exact ⟨⟨_, hscanned.size_of_mem hpart⟩, hle⟩

theorem neighbours (hscanned : stored.Scanned parts) (hbounded : stored.Bounded)
    (hunrepeated : stored.Unrepeated) : stored.log.segments.IsChain stored.Neighbours := by
  refine List.isChain_iff_forall_rel_of_append_cons_cons.mpr fun segment next front back hsplit => ?_
  have hempty := List.isChain_iff_forall_rel_of_append_cons_cons.mp hunrepeated hsplit
  rw [hscanned.segments] at hsplit
  obtain ⟨passed, others, rfl, rfl, hothers⟩ := List.map_eq_append_iff.mp hsplit
  obtain ⟨part, rest, rfl, rfl, hrest⟩ := List.map_eq_cons_iff.mp hothers
  obtain ⟨following, last, rfl, rfl, rfl⟩ := List.map_eq_cons_iff.mp hrest
  have hpart : part ∈ passed ++ part :: following :: last := by simp
  have hnext : following ∈ passed ++ part :: following :: last := by simp
  have hsorted := (List.pairwise_append.mp hscanned.sorted).2.1
  exact ⟨(List.pairwise_cons.mp hsorted).1 _ List.mem_cons_self,
    (hscanned.bounds hbounded hpart).1, (hscanned.bounds hbounded hnext).2, hempty⟩

/-- From any segment on, the bytes of segments that line up reach to the end of the log. -/
theorem length_contents (hscanned : stored.Scanned (front ++ part :: rest)) (hbounded : stored.Bounded)
    (hadjacent : stored.log.segments.IsChain stored.Adjacent) :
    part.segment.offset + (Part.contents (part :: rest)).length = stored.log.maxOffset := by
  obtain ⟨last, hlast⟩ := Option.ne_none_iff_exists'.mp
    (mt List.getLast?_eq_none_iff.mp (List.cons_ne_nil part rest))
  have hend := hscanned.ended hbounded (by rw [List.getLast?_append, hlast, Option.some_or])
  rw [hscanned.segments, List.isChain_map] at hadjacent
  have hchain := hadjacent.right_of_append.imp_of_mem_imp fun part next hmem _ hnext => by
    obtain ⟨size, hsize, hnext⟩ := hnext
    rw [hscanned.size_of_mem (List.mem_append_right front hmem)] at hsize
    rwa [← Except.ok.inj hsize] at hnext
  rw [← hend]
  exact Part.length_contents_of_adjacent hchain hlast

/-- The bytes of segments that line up reach from the first offset to the end of the log. -/
theorem length_contents_all (hscanned : stored.Scanned parts) (hbounded : stored.Bounded)
    (hadjacent : stored.log.segments.IsChain stored.Adjacent) :
    stored.log.firstOffset + (Part.contents parts).length = stored.log.maxOffset := by
  cases parts with
  | nil => exact TopicLog.firstOffset_of_nil hscanned.segments
  | cons first rest =>
    rw [TopicLog.firstOffset_of_cons hscanned.segments]
    exact length_contents (show stored.Scanned ([] ++ first :: rest) from hscanned) hbounded hadjacent

/-- Behind a cursor at the first offset all bytes follow, as the segments that it passes over are
    empty. -/
theorem remaining_eq (hscanned : stored.Scanned parts) (hbounded : stored.Bounded)
    (hadjacent : stored.log.segments.IsChain stored.Adjacent) {cursor : Cursor}
    (hplace : Cursor.place stored.log.segments stored.log.maxOffset stored.log.firstOffset =
      .ok cursor) : cursor.remaining stored.dir = (Part.contents parts, none) := by
  have hall := hscanned.length_contents_all hbounded hadjacent
  obtain ⟨-, hfirst, rfl⟩ := Cursor.eq_of_place hplace
  obtain ⟨passed, hsplit, hsome, -⟩ :=
    Cursor.segmentsFrom_spec stored.log.firstOffset stored.log.segments
  generalize Cursor.segmentsFrom stored.log.firstOffset stored.log.segments = live at *
  rw [hscanned.segments] at hsplit
  obtain ⟨front, back, rfl, rfl, rfl⟩ := List.map_eq_append_iff.mp hsplit
  cases back with
  | nil =>
    have hnone : front = [] := by
      by_contra hne
      exact hsome (by simpa [hscanned.segments] using hne) rfl
    subst hnone
    rfl
  | cons part rest =>
    have hmem : part ∈ front ++ part :: rest := by simp
    have hle := (hscanned.bounds hbounded hmem).1
    have hpart : part.segment.offset ≤ stored.log.firstOffset := hfirst
    have hback := hscanned.length_contents hbounded hadjacent
    rw [Part.contents_append, List.length_append] at hall
    have hfront : Part.contents front = [] := List.eq_nil_of_length_eq_zero (by omega)
    have hplaced : stored.log.firstOffset - part.segment.offset = 0 := by omega
    have hfiles : ∀ other ∈ part :: rest, stored.dir.file other.segment.name = .ok other.file :=
      fun other hother => hscanned.files other (List.mem_append_right front hother)
    have hchain := chain_eq hfiles (fun _ _ => Nat.zero_le _)
      (stored.log.maxOffset - stored.log.firstOffset)
    rw [List.drop_zero, List.take_of_length_le (by omega)] at hchain
    rw [Part.contents_append, hfront, List.nil_append, ← hchain]
    simp only [Cursor.remaining, List.map_cons, List.head?_cons, Option.map_some, Option.getD_some,
      hplaced]

/-- A cursor that came from the first offset to the end of the log left only segments that line up. -/
theorem lined_of_walked (hscanned : stored.Scanned parts) {cursor moved : Cursor} {count : Nat}
    (hplace : Cursor.place stored.log.segments stored.log.maxOffset stored.log.firstOffset =
      .ok cursor)
    (hconsume : cursor.consume stored.log.topic stored.dir count = (.ok (), moved))
    (hend : moved.offset = stored.log.maxOffset) :
    (Cursor.segmentsFrom stored.log.firstOffset stored.log.segments).IsChain stored.Lined := by
  have hlive : cursor.segments <:+ stored.log.segments := Cursor.segments_of_place hplace
  obtain ⟨-, -, rfl⟩ := Cursor.eq_of_place hplace
  obtain ⟨hwalked, hstop⟩ := Cursor.walked_of_consume hconsume rfl
  have hsorted : moved.segments.Pairwise fun segment next => segment.offset ≤ next.offset := by
    refine List.Pairwise.sublist (hwalked.crosses.suffix.trans hlive).sublist ?_
    rw [hscanned.segments, List.pairwise_map]
    exact hscanned.sorted
  have hleft : moved.segments.IsChain stored.Lined := by
    match hsegments : moved.segments with
    | [] => exact List.IsChain.nil
    | [_] => exact List.IsChain.singleton _
    | first :: next :: rest =>
      rw [hsegments, List.pairwise_cons] at hsorted
      obtain ⟨hfirst, hrest⟩ := hsorted
      rcases hstop with havailable | hshort | ⟨start, others, hstart, hplaced⟩
      · -- The cursor stops inside its segment, so the next one starts behind the end of the log.
        have hboundary : moved.boundary = next.offset := by rw [hwalked.boundary, hsegments]; rfl
        have hbehind : stored.log.maxOffset < next.offset := by
          simp only [Cursor.available, hsegments, hboundary, List.isEmpty_cons, Bool.false_eq_true,
            if_false] at havailable
          omega
        refine List.isChain_cons_cons.mpr ⟨fun _ hle => absurd hle (not_le.mpr hbehind), ?_⟩
        refine isChain_lined_of_le fun segment hmem => ?_
        rcases List.mem_cons.mp hmem with rfl | hmem
        · exact hbehind.le
        · exact hbehind.le.trans ((List.pairwise_cons.mp hrest).1 segment hmem)
      · simp [hsegments] at hshort
      · obtain ⟨rfl, -⟩ := List.cons.inj (hsegments.symm.trans hstart)
        refine isChain_lined_of_le fun segment hmem => ?_
        rcases List.mem_cons.mp hmem with rfl | hmem
        · exact (hplaced.trans hend).ge
        · exact (hplaced.trans hend).ge.trans (hfirst segment hmem)
  exact hwalked.crosses.isChain (hscanned.inOrder.suffix hlive) hleft
    fun _ _ hinOrder hjoined _ _ => hinOrder.adjacent_of_joined hjoined

/-- Where the ends of the log are not repeated, all segments line up if those do that a reader leaves. -/
theorem adjacent_of_lined (hscanned : stored.Scanned parts) (hbounded : stored.Bounded)
    (hunrepeated : stored.Unrepeated)
    (hlined : (Cursor.segmentsFrom stored.log.firstOffset stored.log.segments).IsChain stored.Lined) :
    stored.log.segments.IsChain stored.Adjacent := by
  have hneighbours := hscanned.neighbours hbounded hunrepeated
  obtain ⟨passed, hpassed, -⟩ :=
    Cursor.segmentsFrom_spec stored.log.firstOffset stored.log.segments
  have hlive := hneighbours.suffix ⟨passed, hpassed.symm⟩
  have hleft : (Cursor.segmentsFrom stored.log.firstOffset stored.log.segments).IsChain
      stored.Adjacent := by
    refine List.isChain_iff_forall_rel_of_append_cons_cons.mpr ?_
    intro segment next front back hsplit
    have hneighbour := List.isChain_iff_forall_rel_of_append_cons_cons.mp hlive hsplit
    have hlines := List.isChain_iff_forall_rel_of_append_cons_cons.mp hlined hsplit
    have hle := hneighbour.le
    have hinside := hneighbour.le_maxOffset
    by_cases hbefore : segment.offset < stored.log.maxOffset
    · exact hlines hbefore hinside
    · exact hneighbour.adjacent_of_repeated (by omega) (Or.inr (by omega))
  refine Cursor.isChain_of_segmentsFrom hneighbours hleft fun segment next hneighbour hle => ?_
  have hbefore := hneighbour.firstOffset_le
  have hsorted := hneighbour.le
  exact hneighbour.adjacent_of_repeated (by omega) (Or.inl (by omega))

end Scanned

theorem exists_of_checksum (hnumbered : stored.log.Numbered) (hsum : stored.checksum = .ok sum) :
    ∃ cursor count entries moved,
      Cursor.place stored.log.segments stored.log.maxOffset stored.log.firstOffset = .ok cursor ∧
      cursor.visitEntries stored.dir Block.collect false [] = (.ok count, entries) ∧
      cursor.consume stored.log.topic stored.dir count = (.ok (), moved) ∧
      moved.offset = stored.log.maxOffset ∧
      stored.log.firstOffset + count = stored.log.maxOffset ∧
      sum = {
        digest := Sha512.digest entries.reverse.flatten
        entries := entries.length
        bytes := count } := by
  cases hplace : Cursor.place stored.log.segments stored.log.maxOffset stored.log.firstOffset with
  | error fault =>
    simp [checksum, takeChecksum, TopicLog.addReader, hplace, bind, Except.bind] at hsum
  | ok cursor =>
    obtain ⟨after, htake, -⟩ := takeChecksum_spec hnumbered hplace
    rw [checksum, htake] at hsum
    rcases hvisit : cursor.visitEntries stored.dir Block.collect false [] with
      ⟨fault | count, entries⟩
    · rw [Cursor.checksum_of_error hvisit] at hsum
      cases hsum
    · rw [Cursor.checksum_of_ok hvisit] at hsum
      rcases hconsume : cursor.consume stored.log.topic stored.dir count with ⟨fault | _, moved⟩
      · rw [hconsume] at hsum
        cases hsum
      · rw [hconsume] at hsum
        dsimp only at hsum
        by_cases hend : moved.offset = moved.maxOffset
        · rw [if_pos hend] at hsum
          have hmoved : moved.maxOffset = stored.log.maxOffset ∧
              moved.offset = stored.log.firstOffset + count := by
            obtain ⟨-, -, rfl⟩ := Cursor.eq_of_place hplace
            obtain ⟨hwalked, -⟩ := Cursor.walked_of_consume hconsume rfl
            exact ⟨hwalked.maxOffset, hwalked.offset⟩
          exact ⟨cursor, count, entries, moved, rfl, hvisit, hconsume, by omega, by omega,
            (Except.ok.inj hsum).symm⟩
        · rw [if_neg hend] at hsum
          cases hsum

/-- What a reader at the first offset is shown are the entries of the log. -/
theorem entries_of_visit {cursor : Cursor} {count : Except Fault Nat} {list : List Bytes}
    (hplace : Cursor.place stored.log.segments stored.log.maxOffset stored.log.firstOffset = .ok cursor)
    (hvisit : cursor.visitEntries stored.dir Block.collect false [] = (count, list)) :
    stored.entries = (list.reverse,
      count.map fun bytes => decide (stored.log.firstOffset + bytes = stored.log.maxOffset)) := by
  unfold StoredLog.entries
  simp only [hplace]
  exact congrArg (fun outcome => (outcome.2.reverse, outcome.1.map fun bytes =>
    decide (stored.log.firstOffset + bytes = stored.log.maxOffset))) hvisit

/-- Where a checksum can be taken, a reader is shown the entries that it sums up. -/
theorem exists_reads_of_checksum (hascending : dir.entries.Ascending)
    (hopen : ofDirectory topic dir = .ok stored) (hsum : stored.checksum = .ok sum) :
    ∃ list, stored.Reads list ∧ sum = {
      digest := Sha512.digest list.flatten
      entries := list.length
      bytes := stored.log.maxOffset - stored.log.firstOffset } := by
  obtain ⟨parts, hscanned⟩ := exists_scanned hascending hopen
  obtain ⟨cursor, count, entries, moved, hplace, hvisit, hconsume, hend, hcount, rfl⟩ :=
    exists_of_checksum (numbered_of_ofDirectory hopen) hsum
  refine ⟨entries.reverse, ⟨?_, hscanned.lined_of_walked hplace hconsume hend⟩, ?_⟩
  · rw [entries_of_visit hplace hvisit]
    simp [Except.map, hcount]
  · rw [List.length_reverse, ← hcount, Nat.add_sub_cancel_left]

namespace Reads

variable {list : List Bytes}

/-- What is shown was collected by a reader at the first offset, which read up to the end of the log. -/
theorem exists_visit (hreads : stored.Reads list) :
    ∃ cursor count,
      Cursor.place stored.log.segments stored.log.maxOffset stored.log.firstOffset = .ok cursor ∧
      cursor.visitEntries stored.dir Block.collect false [] = (.ok count, list.reverse) ∧
      stored.log.firstOffset + count = stored.log.maxOffset := by
  have hshown := hreads.shown
  cases hplace : Cursor.place stored.log.segments stored.log.maxOffset stored.log.firstOffset with
  | error fault => simp [StoredLog.entries, hplace] at hshown
  | ok cursor =>
    rcases hvisit : cursor.visitEntries stored.dir Block.collect false [] with
      ⟨fault | count, entries⟩
    · simp [entries_of_visit hplace hvisit, Except.map] at hshown
    · rw [entries_of_visit hplace hvisit, Prod.mk.injEq] at hshown
      obtain ⟨rfl, hcount⟩ := hshown
      have hend : stored.log.firstOffset + count = stored.log.maxOffset := by
        simpa [Except.map] using hcount
      exact ⟨cursor, count, rfl, by rwa [List.reverse_reverse], hend⟩

/-- Where the ends of the log are not repeated, all segments line up and hold blocks, whose entries are
    those that a reader is shown. -/
theorem madeOf (hreads : stored.Reads list) (hascending : dir.entries.Ascending)
    (hopen : ofDirectory topic dir = .ok stored) (hbounded : stored.Bounded)
    (hunrepeated : stored.Unrepeated) :
    stored.log.segments.IsChain stored.Adjacent ∧
      ∃ bytes blocks, stored.MadeOf bytes blocks ∧
        list = (blocks.flatMap fun block => block.entries.1) ∧
        stored.log.firstOffset + bytes.length = stored.log.maxOffset := by
  obtain ⟨parts, hscanned⟩ := exists_scanned hascending hopen
  obtain ⟨cursor, count, hplace, hvisit, hcount⟩ := hreads.exists_visit
  have hadjacent := hscanned.adjacent_of_lined hbounded hunrepeated hreads.lined
  have hlength := hscanned.length_contents_all hbounded hadjacent
  rw [Cursor.visitEntries, hscanned.remaining_eq hbounded hadjacent hplace] at hvisit
  obtain ⟨-, blocks, rest, hread, hreadable, hblocks, hlist⟩ :=
    Block.exists_of_visitAll_collect hvisit
  have hbytes : count = (Part.contents parts).length := by omega
  rw [List.append_nil, List.reverse_inj] at hlist
  exact ⟨hadjacent, Part.contents parts, blocks,
    ⟨bytes_of_parts hscanned.segments hscanned.files, ⟨rest, hread⟩, hblocks.symm.trans hbytes,
      hreadable⟩, hlist, hlength⟩

end Reads

/-- Whatever the files of a directory are, a checksum of the log that is found there takes in all of
    it, unless a segment with data shares the first or the last offset of the log with a later one, or
    the end of the log is no offset. -/
theorem covers_of_checksum (hascending : dir.entries.Ascending)
    (hopen : ofDirectory topic dir = .ok stored) (hbounded : stored.Bounded)
    (hunrepeated : stored.Unrepeated) (hsum : stored.checksum = .ok sum) : sum.Covers stored := by
  obtain ⟨list, hreads, rfl⟩ := exists_reads_of_checksum hascending hopen hsum
  obtain ⟨hadjacent, bytes, blocks, hmade, rfl, hlength⟩ :=
    hreads.madeOf hascending hopen hbounded hunrepeated
  have hbytes : stored.log.maxOffset - stored.log.firstOffset = bytes.length := by omega
  refine ⟨hadjacent, bytes, blocks, hmade, ?_⟩
  rw [hbytes]
  rfl

/-- Only the last file of a log is read where it starts at the first offset. If it is made up of blocks,
    their entries are shown and summed up. -/
theorem reads_last {segment : Segment} {file : File} {blocks : List Block} {rest : Bytes}
    (hnumbered : stored.log.Numbered)
    (hlive : Cursor.segmentsFrom stored.log.firstOffset stored.log.segments = [segment])
    (hfirst : segment.offset = stored.log.firstOffset)
    (hfile : stored.dir.file segment.name = .ok file)
    (hend : stored.log.firstOffset + file.bytes.length = stored.log.maxOffset)
    (hread : Block.readAll file.bytes = (blocks, none, rest))
    (hwhole : ∀ block ∈ blocks, block.entries.2 = none)
    (hlength : (blocks.map Block.frameLength).sum = file.bytes.length) :
    stored.entries = (blocks.flatMap fun block => block.entries.1, .ok true) ∧
      stored.checksum = .ok (.ofBlocks blocks file.bytes.length) := by
  let placed : Cursor := {
    segments := [segment]
    offset := stored.log.firstOffset
    boundary := stored.log.maxOffset
    maxOffset := stored.log.maxOffset }
  have hplace : Cursor.place stored.log.segments stored.log.maxOffset stored.log.firstOffset =
      .ok placed := by
    have hinside : ¬ stored.log.maxOffset < stored.log.firstOffset := by omega
    rw [Cursor.place, if_neg hinside]
    simp [hlive, hfirst, placed, Cursor.segmentEnd]
  have hremaining : placed.remaining stored.dir = (file.bytes, none) :=
    Cursor.remaining_last rfl rfl hfile hend
  have hvisit : placed.visitEntries stored.dir Block.collect false [] =
      (.ok file.bytes.length, (blocks.flatMap fun block => block.entries.1).reverse) := by
    rw [Cursor.visitEntries, hremaining]
    dsimp only
    rw [Block.visitAll_collect hread hwhole, List.append_nil, hlength]
  have havailable : placed.available = file.bytes.length := by
    simp only [Cursor.available, placed, List.isEmpty_cons, Bool.false_eq_true, if_false]
    omega
  have hlast : placed.segments.length ≤ 1 := le_rfl
  have hconsume := Cursor.consume_last hlast havailable.ge hend.le stored.log.topic stored.dir
  obtain ⟨after, htake, -⟩ := takeChecksum_spec hnumbered hplace
  constructor
  · rw [entries_of_visit hplace hvisit, List.reverse_reverse]
    simp [Except.map, hend]
  · rw [checksum, htake, Cursor.checksum_of_ok hvisit, hconsume]
    dsimp only [Cursor.skip, placed]
    rw [if_pos hend, List.reverse_reverse, List.length_reverse]
    rfl

/-- Two files that start at offset 0. The second one is a block without entries. -/
def twiceStarted (data : Bytes) : Directory where
  place := .folder [("00000000000000000000.20200101000000", .file ⟨0, data, ⟨0, 0⟩⟩),
    ("00000000000000000000.20200101000001",
      .file ⟨1, [0x00, 0x00, 0x09, 0x28, 0xb5, 0x2f, 0xfd, 0x00, 0x38, 0x01, 0x00, 0x00], ⟨0, 0⟩⟩)]
  nextId := 2

theorem ascending_twiceStarted (data : Bytes) : (twiceStarted data).entries.Ascending := by
  have hlt : "00000000000000000000.20200101000000" < "00000000000000000000.20200101000001" := by
    decide +kernel
  exact List.pairwise_pair.mpr hlt

/-- The log that is found there: it starts at offset 0 and ends behind the block. -/
theorem ofDirectory_twiceStarted (data : Bytes) :
    ofDirectory "t" (twiceStarted data) = .ok ⟨{
      topic := "t"
      segments := [⟨"00000000000000000000.20200101000000", 0⟩,
        ⟨"00000000000000000000.20200101000001", 0⟩]
      maxOffset := 12 }, twiceStarted data⟩ := by
  have hfirst : Segment.ofName "00000000000000000000.20200101000000" =
      .ok ⟨"00000000000000000000.20200101000000", 0⟩ := by decide +kernel
  have hsecond : Segment.ofName "00000000000000000000.20200101000001" =
      .ok ⟨"00000000000000000000.20200101000001", 0⟩ := by decide +kernel
  simp [ofDirectory, reload, scan, twiceStarted, Directory.listing, Directory.items, Directory.absent,
    Items.files, Except.mapError, bind, Except.bind, pure, Except.pure, hfirst, hsecond,
    Nat.mod_eq_of_lt (show 12 < Decimal.maxValue + 1 by decide)]

/-- Whatever the first file holds, the block is summed up. -/
theorem exists_checksum_twiceStarted {data : Bytes}
    (hopen : ofDirectory "t" (twiceStarted data) = .ok stored) :
    ∃ sum, stored.checksum = .ok sum := by
  have hnumbered := numbered_of_ofDirectory hopen
  rw [ofDirectory_twiceStarted, Except.ok.injEq] at hopen
  subst hopen
  have hread := Block.readAll_of_block Block.read_empty
  rw [Block.readAll_of_none (show Block.read [] = (.ok none, []) from rfl)] at hread
  have hfile : (twiceStarted data).file "00000000000000000000.20200101000001" = .ok ⟨1,
      [0x00, 0x00, 0x09, 0x28, 0xb5, 0x2f, 0xfd, 0x00, 0x38, 0x01, 0x00, 0x00], ⟨0, 0⟩⟩ := by
    have hname : SegmentName.offset "00000000000000000000.20200101000001" = .ok 0 := by
      decide +kernel
    refine Directory.file_of_mem_files (ascending_twiceStarted data) hname ?_
    simp [Directory.files, Directory.entries, twiceStarted, Items.files]
  have hwhole : ∀ block ∈ [(⟨⟨0, 9⟩, []⟩ : Block)], block.entries.2 = none :=
    List.forall_mem_singleton.mpr (congrArg Prod.snd Entries.decode_nil)
  exact ⟨_, (reads_last hnumbered rfl rfl hfile rfl hread hwhole rfl).2⟩

/-- An empty file at the start of the log does not keep a checksum from taking in all of it. -/
theorem covers_behind_empty_start :
    ∃ stored sum, ofDirectory "t" (twiceStarted []) = .ok stored ∧ stored.checksum = .ok sum ∧
      sum.Covers stored := by
  have hopen := ofDirectory_twiceStarted []
  obtain ⟨sum, hsum⟩ := exists_checksum_twiceStarted hopen
  have hlong : (twiceStarted []).size "00000000000000000000.20200101000001" = .ok 12 := by
    decide +kernel
  refine ⟨_, sum, hopen, hsum, covers_of_checksum (ascending_twiceStarted []) hopen ?_ ?_ hsum⟩
  · intro last size hlast hsize
    obtain rfl := Option.some.inj hlast
    obtain rfl := Except.ok.inj (hlong.symm.trans hsize)
    decide
  · exact List.isChain_pair.mpr fun _ _ => by decide +kernel

/-- A byte in that file is part of no block, and the checksum does not tell. -/
theorem not_covers_behind_repeated_start :
    ∃ stored sum, (twiceStarted [0xff]).entries.Ascending ∧
      ofDirectory "t" (twiceStarted [0xff]) = .ok stored ∧ stored.checksum = .ok sum ∧
      ¬ sum.Covers stored := by
  have hopen := ofDirectory_twiceStarted [0xff]
  obtain ⟨sum, hsum⟩ := exists_checksum_twiceStarted hopen
  refine ⟨_, sum, ascending_twiceStarted _, hopen, hsum, fun hcovers => ?_⟩
  obtain ⟨size, hsize, hnext⟩ := List.isChain_pair.mp hcovers.adjacent
  have hlong : (twiceStarted [0xff]).size "00000000000000000000.20200101000000" = .ok 1 := by
    decide +kernel
  rw [hlong, Except.ok.injEq] at hsize
  subst hsize
  exact absurd hnext (by decide)

end StoredLog

end ReplicatedLog
