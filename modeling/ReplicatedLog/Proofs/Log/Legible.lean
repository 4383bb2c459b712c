import ReplicatedLog.Proofs.Log.Walking

namespace ReplicatedLog

namespace Cursor

variable {stored : StoredLog} {cursor : Cursor} {length : Nat}

/-- A cursor that no segment keeps from going on to the end of the log. -/
structure Glides (stored : StoredLog) (cursor : Cursor) : Prop where
  rides : cursor.Rides stored
  lined : cursor.segments.IsChain stored.Lined
  entered : ∀ segment rest, cursor.segments = segment :: rest → segment.offset ≤ cursor.offset

namespace Glides

theorem skip (hglides : cursor.Glides stored) (hlength : length ≤ cursor.available)
    (hend : cursor.offset + length ≤ stored.log.maxOffset) : (cursor.skip length).Glides stored :=
  ⟨hglides.rides.skip hlength hend, hglides.lined, fun segment rest hsegments =>
    (hglides.entered segment rest hsegments).trans (Nat.le_add_right _ _)⟩

/-- An exhausted segment that starts before the end of the log is left. -/
theorem nextSegment (hglides : cursor.Glides stored) (hdone : cursor.available = 0)
    (hmore : 1 < cursor.segments.length)
    (hbefore : ∀ segment rest, cursor.segments = segment :: rest →
      segment.offset < stored.log.maxOffset) :
    ∃ moved, Cursor.nextSegment stored.log.topic stored.dir cursor = (.ok (), moved) ∧
      moved.Glides stored ∧ moved.offset = cursor.offset := by
  obtain ⟨current, next, rest, hsegments⟩ := exists_next_of_length hmore
  have hplace := hglides.rides.offset_of_exhausted hdone hsegments
  have hlined := hglides.lined
  rw [hsegments] at hlined
  obtain ⟨hcurrent, hrest⟩ := List.isChain_cons_cons.mp hlined
  have hadjacent := hcurrent (hbefore current _ hsegments) (hplace.trans_le hglides.rides.inside)
  obtain ⟨moved, hnext, hrides, hleft, hoffset⟩ :=
    hglides.rides.nextSegment_of_adjacent hdone hsegments hadjacent
  refine ⟨moved, hnext, ⟨hrides, hleft ▸ hrest, fun segment others hmoved => ?_⟩, hoffset⟩
  obtain ⟨rfl, -⟩ := List.cons.inj (hleft.symm.trans hmoved)
  exact (hplace.trans hoffset.symm).le

/-- A cursor that is to go beyond its segment gets into the next one. -/
theorem nextSegment_skip (hglides : cursor.Glides stored)
    (hend : cursor.offset + length ≤ stored.log.maxOffset)
    (hleft : length - min cursor.available length ≠ 0) (hlong : ¬ cursor.segments.length ≤ 1) :
    ∃ moved, Cursor.nextSegment stored.log.topic stored.dir
        (cursor.skip (min cursor.available length)) = (.ok (), moved) ∧
      moved.Glides stored ∧ moved.offset = cursor.offset + min cursor.available length := by
  have hskipped := hglides.skip (Nat.min_le_left cursor.available length) (by omega)
  refine hskipped.nextSegment ?_ (not_le.mp hlong) fun segment rest hsegments => ?_
  · rw [available_skip]
    omega
  · have hentered := hskipped.entered segment rest hsegments
    simp only [Cursor.skip] at hentered
    omega

/-- Up to the end of the log the cursor can be moved. If it is, it goes on behind the start of its
    segment. -/
theorem walk (hglides : cursor.Glides stored)
    (hend : cursor.offset + length ≤ stored.log.maxOffset) :
    ∃ moved, Cursor.walk stored.log.topic stored.dir cursor length = (.ok (), moved) ∧
      moved.Glides stored ∧ moved.offset = cursor.offset + length ∧
      (0 < length → ∀ segment rest, moved.segments = segment :: rest →
        segment.offset < moved.offset) := by
  fun_induction Cursor.walk stored.log.topic stored.dir cursor length with
  | case1 cursor length step skipped left hdone =>
    have hskipped := hglides.skip (Nat.min_le_left cursor.available length) (by omega)
    have hoffset : skipped.offset = cursor.offset + length := by
      simp only [skipped, Cursor.skip]
      omega
    refine ⟨skipped, rfl, hskipped, hoffset, fun hlength segment rest hsegments => ?_⟩
    have hentered := hglides.entered segment rest hsegments
    omega
  | case2 cursor length step skipped left hleft hshort =>
    have hinside := hglides.rides.available_of_short hshort
    omega
  | case3 cursor length step skipped left hleft hlong fault moved hfails =>
    obtain ⟨other, hok, -⟩ := hglides.nextSegment_skip hend hleft hlong
    cases hok.symm.trans hfails
  | case4 cursor length step skipped left hleft hlong moved hok _ ih =>
    obtain ⟨other, hother, hmoved, hoffset⟩ := hglides.nextSegment_skip hend hleft hlong
    obtain rfl : other = moved := (Prod.mk.inj (hother.symm.trans hok)).2
    obtain ⟨last, hlast, hend, hplace, hbehind⟩ := ih hmoved (by omega)
    exact ⟨last, hlast, hend, by omega, fun _ => hbehind (by omega)⟩

/-- So can it when the next segment is entered as soon as the current one is exhausted. -/
theorem consume (hglides : cursor.Glides stored)
    (hend : cursor.offset + length ≤ stored.log.maxOffset)
    (hahead : 0 < cursor.available ∨ cursor.segments.length ≤ 1) :
    ∃ moved, Cursor.consume stored.log.topic stored.dir cursor length = (.ok (), moved) ∧
      moved.offset = cursor.offset + length := by
  have hinside : ¬ cursor.maxOffset < cursor.offset + length := by
    rw [hglides.rides.maxOffset]
    omega
  obtain ⟨moved, hwalk, hmoved, hoffset, hbehind⟩ := hglides.walk hend
  simp only [Cursor.consume, if_neg hinside, hwalk]
  by_cases hnext : moved.available = 0 ∧ 1 < moved.segments.length
  · rw [if_pos hnext]
    have hpositive : 0 < length := by
      by_contra hzero
      obtain rfl : length = 0 := by omega
      rw [walk_eq (Nat.zero_le _)] at hwalk
      obtain rfl := (Prod.mk.inj hwalk).2
      rw [available_skip] at hnext
      have hmore : 1 < cursor.segments.length := hnext.2
      omega
    obtain ⟨last, hlast, -, hplace⟩ := hmoved.nextSegment hnext.1 hnext.2
      fun segment rest hsegments =>
        (hbehind hpositive segment rest hsegments).trans_le (hoffset.trans_le hend)
    exact ⟨last, hlast, hplace.trans hoffset⟩
  · rw [if_neg hnext]
    exact ⟨moved, rfl, hoffset⟩

end Glides

/-- A cursor at the first offset glides where the segments line up that it is to leave. -/
theorem glides_of_place {parts : List Part} (hscanned : stored.Scanned parts)
    (hplace : place stored.log.segments stored.log.maxOffset stored.log.firstOffset = .ok cursor)
    (hlined : (segmentsFrom stored.log.firstOffset stored.log.segments).IsChain stored.Lined) :
    cursor.Glides stored ∧ (0 < cursor.available ∨ cursor.segments.length ≤ 1) := by
  have hrides := Rides.of_place hscanned hplace
  obtain ⟨-, -, -, hnext, -⟩ := segmentsFrom_spec stored.log.firstOffset stored.log.segments
  obtain ⟨-, hfirst, rfl⟩ := eq_of_place hplace
  refine ⟨⟨hrides, hlined, fun segment rest hsegments => ?_⟩, ?_⟩
  · dsimp only at hsegments ⊢
    rwa [hsegments] at hfirst
  · rcases hlive : segmentsFrom stored.log.firstOffset stored.log.segments with
      _ | ⟨current, _ | ⟨next, rest⟩⟩
    · exact Or.inr (Nat.zero_le _)
    · exact Or.inr le_rfl
    · have hbehind := hnext current next rest hlive
      left
      simp only [available, segmentEnd, List.isEmpty_cons, Bool.false_eq_true, if_false]
      omega

end Cursor

namespace StoredLog

variable {stored : StoredLog} {topic : String} {dir : Directory} {sum : Checksum}
  {list : List Bytes}

/-- What a reader is shown up to the end of the log is summed up. -/
theorem Reads.checksum_eq (hreads : stored.Reads list) (hascending : dir.entries.Ascending)
    (hopen : ofDirectory topic dir = .ok stored) :
    stored.checksum = .ok {
      digest := Sha512.digest list.flatten
      entries := list.length
      bytes := stored.log.maxOffset - stored.log.firstOffset } := by
  obtain ⟨parts, hscanned⟩ := exists_scanned hascending hopen
  obtain ⟨cursor, count, hplace, hvisit, hcount⟩ := hreads.exists_visit
  obtain ⟨hglides, hahead⟩ := Cursor.glides_of_place hscanned hplace hreads.lined
  obtain ⟨after, htake, -⟩ := takeChecksum_spec (numbered_of_ofDirectory hopen) hplace
  have hoffset : cursor.offset = stored.log.firstOffset := by
    obtain ⟨-, -, rfl⟩ := Cursor.eq_of_place hplace
    rfl
  obtain ⟨moved, hconsume, hend⟩ := hglides.consume (by omega : _ + count ≤ _) hahead
  have hmax : moved.maxOffset = stored.log.maxOffset := by
    obtain ⟨hwalked, -⟩ := Cursor.walked_of_consume hconsume hglides.rides.boundary
    exact hwalked.maxOffset.trans hglides.rides.maxOffset
  have hstop : moved.offset = moved.maxOffset := by omega
  rw [checksum, htake, Cursor.checksum_of_ok hvisit, hconsume]
  dsimp only
  rw [if_pos hstop, List.reverse_reverse, List.length_reverse, ← hcount, Nat.add_sub_cancel_left]

/-- A checksum can be taken exactly where a reader is shown entries up to the end of the log, and these
    are summed up. -/
theorem checksum_eq_ok_iff (hascending : dir.entries.Ascending)
    (hopen : ofDirectory topic dir = .ok stored) :
    stored.checksum = .ok sum ↔ ∃ list, stored.Reads list ∧ sum = {
      digest := Sha512.digest list.flatten
      entries := list.length
      bytes := stored.log.maxOffset - stored.log.firstOffset } := by
  refine ⟨exists_reads_of_checksum hascending hopen, ?_⟩
  rintro ⟨list, hreads, rfl⟩
  exact hreads.checksum_eq hascending hopen

end StoredLog

end ReplicatedLog
