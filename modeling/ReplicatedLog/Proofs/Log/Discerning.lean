import ReplicatedLog.Proofs.Log.Readers

namespace ReplicatedLog

/-- A cursor that follows a log. The segments that it still knows of, and the log does not, start at
    or before the log, and no segment of the log has the name of one of them. -/
structure Cursor.Discerns (cursor : Cursor) (log : TopicLog) : Prop where
  follows : cursor.Follows log
  apart : ∃ gone live, cursor.segments = gone ++ live ∧ live <:+ log.segments ∧
    ∀ segment ∈ gone, segment.offset ≤ log.firstOffset ∧
      ∀ other ∈ log.segments, segment.name ≠ other.name

/-- The region that a cursor offers starts at its place and ends within its current segment. -/
structure Cursor.Offers (cursor : Cursor) (region : Region) : Prop where
  current : cursor.segments.head? = some region.segment
  position : region.position = cursor.position
  offset : region.offset = cursor.offset
  positive : 0 < region.length
  length_le : region.length ≤ cursor.available

/-- The oldest segment has a name of its own. -/
theorem TopicLog.Ordered.name_ne {log : TopicLog} (hordered : log.Ordered) {oldest : Segment}
    {rest : List Segment} (hsegments : log.segments = oldest :: rest) :
    ∀ other ∈ rest, oldest.name ≠ other.name := by
  intro other hmem hsame
  have hlt := (List.pairwise_cons.mp (hsegments ▸ hordered.ascending)).1 other hmem
  have holdest := hordered.named oldest (hsegments ▸ List.mem_cons_self)
  rw [hsame, hordered.named other (hsegments ▸ List.mem_cons_of_mem _ hmem)] at holdest
  exact hlt.ne' (Except.ok.inj holdest)

namespace Cursor

variable {cursor moved : Cursor} {log after : TopicLog} {stored : StoredLog} {parts : List Part}

/-- Where a cursor is placed and what it knows then. -/
theorem eq_of_place {segments : List Segment} {maxOffset offset : Nat}
    (hplace : place segments maxOffset offset = .ok cursor) :
    offset ≤ maxOffset ∧
      (((segmentsFrom offset segments).head?.map (·.offset)).getD maxOffset) ≤ offset ∧
      cursor = {
        segments := segmentsFrom offset segments
        offset
        position := offset - ((segmentsFrom offset segments).head?.map (·.offset)).getD maxOffset
        boundary := segmentEnd (segmentsFrom offset segments) maxOffset
        maxOffset } := by
  unfold place at hplace
  split at hplace
  next => cases hplace
  next hend =>
    dsimp only at hplace
    split at hplace
    next => cases hplace
    next hfirst => exact ⟨not_lt.mp hend, not_lt.mp hfirst, (Except.ok.inj hplace).symm⟩

/-- A cursor is placed with segments of the log only. -/
theorem segments_of_place {segments : List Segment} {maxOffset offset : Nat}
    (hplace : place segments maxOffset offset = .ok cursor) : cursor.segments <:+ segments := by
  obtain ⟨passed, hsplit, -⟩ := segmentsFrom_spec offset segments
  obtain ⟨-, -, rfl⟩ := eq_of_place hplace
  exact ⟨passed, hsplit.symm⟩

/-- What is left of a list of segments when some went at its front, told apart as the list was. -/
theorem exists_split_of_suffix {known gone live : List Segment} (hsuffix : known <:+ gone ++ live) :
    ∃ left kept, known = left ++ kept ∧ left ⊆ gone ∧ kept <:+ live := by
  obtain ⟨front, hfront⟩ := hsuffix
  rcases List.append_eq_append_iff.mp hfront with ⟨left, hgone, hknown⟩ | ⟨passed, -, hlive⟩
  · exact ⟨left, live, hknown, hgone ▸ List.subset_append_right _ _, List.suffix_rfl⟩
  · exact ⟨[], known, rfl, List.nil_subset _, hlive ▸ List.suffix_append _ _⟩

theorem available_skip (cursor : Cursor) (length : Nat) :
    (cursor.skip length).available = cursor.available - length := by
  unfold available Cursor.skip
  by_cases hempty : cursor.segments.isEmpty
  · simp [hempty]
  · simp only [hempty, Bool.false_eq_true, if_false]
    omega

namespace Discerns

/-- Only the segments and the end of a log matter to its cursors. -/
theorem congr (hdiscerns : cursor.Discerns log) (hsegments : after.segments = log.segments)
    (hend : after.maxOffset = log.maxOffset) : cursor.Discerns after := by
  obtain ⟨gone, live, hsplit, hlive, hgone⟩ := hdiscerns.apart
  have hfirst : after.firstOffset = log.firstOffset := by
    unfold TopicLog.firstOffset
    rw [hsegments, hend]
  refine ⟨hdiscerns.follows.congr hsegments hend, gone, live, hsplit, hsegments ▸ hlive, ?_⟩
  rw [hfirst, hsegments]
  exact hgone

/-- A cursor that was just placed knows of no segment that is gone. -/
theorem of_place {offset : Nat} (hplace : place log.segments log.maxOffset offset = .ok cursor) :
    cursor.Discerns log ∧ cursor.offset = offset := by
  obtain ⟨hfollows, hoffset⟩ := follows_of_place hplace
  exact ⟨⟨hfollows, [], cursor.segments, rfl, segments_of_place hplace, by simp⟩, hoffset⟩

/-- A segment that the cursor knows and the log does not is gone. -/
theorem of_not_mem (hdiscerns : cursor.Discerns log) {segment : Segment}
    (hmem : segment ∈ cursor.segments) (hnone : segment ∉ log.segments) :
    segment.offset ≤ log.firstOffset := by
  obtain ⟨gone, live, hsplit, hlive, hgone⟩ := hdiscerns.apart
  rw [hsplit] at hmem
  rcases List.mem_append.mp hmem with hmem | hmem
  · exact (hgone segment hmem).1
  · exact absurd (hlive.subset hmem) hnone

/-- What a cursor knows of a log may shrink from the front. -/
theorem of_suffix (hdiscerns : cursor.Discerns log) (hmoved : moved.Follows log)
    (hsuffix : moved.segments <:+ cursor.segments) : moved.Discerns log := by
  obtain ⟨gone, live, hsplit, hlive, hgone⟩ := hdiscerns.apart
  obtain ⟨left, kept, hknown, hleft, hkept⟩ := exists_split_of_suffix (hsplit ▸ hsuffix)
  exact ⟨hmoved, left, kept, hknown, hkept.trans hlive, fun segment hmem =>
    hgone segment (hleft hmem)⟩

/-- A new segment is told from those that are gone if it has a name of its own. -/
theorem addSegment (hdiscerns : cursor.Discerns log) {segment : Segment}
    (hsegment : segment.offset = log.maxOffset)
    (hname : ∀ known ∈ cursor.segments, known ∉ log.segments → known.name ≠ segment.name) :
    (cursor.addSegment segment).Discerns (log.addSegment segment) := by
  obtain ⟨gone, live, hsplit, ⟨front, hfront⟩, hgone⟩ := hdiscerns.apart
  have hfirst := (TopicLog.Widened.added segment hsegment).firstOffset_eq
  refine ⟨hdiscerns.follows.addSegment hsegment, gone, live ++ [segment], ?_, ⟨front, ?_⟩, ?_⟩
  · simp [Cursor.addSegment, hsplit]
  · rw [← List.append_assoc, hfront]
    rfl
  · intro known hmem
    obtain ⟨hoffset, hother⟩ := hgone known hmem
    rw [hfirst]
    refine ⟨hoffset, fun other hadded => ?_⟩
    rcases List.mem_append.mp hadded with hlive | hnew
    · exact hother other hlive
    · rw [List.mem_singleton.mp hnew]
      exact hname known (hsplit ▸ List.mem_append_left _ hmem) fun hlive => hother known hlive rfl

theorem addBytes (hdiscerns : cursor.Discerns log) (hsegments : log.segments ≠ [])
    (length : Nat) : (cursor.addBytes length).Discerns (log.addBytes length) := by
  obtain ⟨gone, live, hsplit, hlive, hgone⟩ := hdiscerns.apart
  refine ⟨hdiscerns.follows.addBytes hsegments length, gone, live, hsplit, hlive, ?_⟩
  rw [TopicLog.firstOffset_addBytes hsegments length]
  exact hgone

theorem drop_oldest (hdiscerns : cursor.Discerns log) (hordered : log.Ordered)
    {oldest next : Segment} {rest : List Segment}
    (hsegments : log.segments = oldest :: next :: rest) (hgate : next.offset ≤ cursor.offset) :
    cursor.Discerns { log with segments := next :: rest } := by
  obtain ⟨gone, live, hsplit, hlive, hgone⟩ := hdiscerns.apart
  have hlt := (List.pairwise_cons.mp (hsegments ▸ hordered.ascending)).1 next List.mem_cons_self
  have hbefore : ∀ known ∈ gone, known.offset ≤ next.offset ∧
      ∀ other ∈ next :: rest, known.name ≠ other.name := by
    intro known hmem
    obtain ⟨hoffset, hother⟩ := hgone known hmem
    rw [TopicLog.firstOffset_of_cons hsegments] at hoffset
    exact ⟨hoffset.trans hlt.le, fun other hrest =>
      hother other (hsegments ▸ List.mem_cons_of_mem _ hrest)⟩
  refine ⟨hdiscerns.follows.drop_oldest hordered hsegments hgate, ?_⟩
  rw [hsegments, List.suffix_cons_iff] at hlive
  rcases hlive with rfl | hlive
  · refine ⟨gone ++ [oldest], next :: rest, by simp [hsplit], List.suffix_rfl, ?_⟩
    intro known hmem
    rcases List.mem_append.mp hmem with hmem | hmem
    · exact hbefore known hmem
    · rw [List.mem_singleton.mp hmem]
      exact ⟨hlt.le, hordered.name_ne hsegments⟩
  · exact ⟨gone, live, hsplit, hlive, hbefore⟩

theorem drop_last (hdiscerns : cursor.Discerns log) (hordered : log.Ordered) {last : Segment}
    (hsegments : log.segments = [last]) (hgate : log.maxOffset ≤ cursor.offset) :
    cursor.Discerns { log with segments := [], active := none } := by
  obtain ⟨gone, live, hsplit, hlive, hgone⟩ := hdiscerns.apart
  refine ⟨hdiscerns.follows.drop_last hordered hsegments hgate, cursor.segments, [], by simp,
    List.suffix_rfl, fun known hmem => ⟨?_, by simp⟩⟩
  change known.offset ≤ log.maxOffset
  have hbound := hordered.bounded last (hsegments ▸ List.mem_cons_self)
  rw [hsplit] at hmem
  rcases List.mem_append.mp hmem with hmem | hmem
  · have hoffset := (hgone known hmem).1
    rw [TopicLog.firstOffset_of_cons hsegments] at hoffset
    exact hoffset.trans hbound
  · exact hordered.bounded known (hlive.subset hmem)

/-- A cleanup up to the place of a cursor does not disturb it, even if no segment is left. -/
theorem cleaned (hdiscerns : cursor.Discerns log) (hordered : log.Ordered) {gate : Nat}
    (hcleaned : log.Cleaned gate after) (hgate : gate ≤ cursor.offset) : cursor.Discerns after := by
  induction hcleaned with
  | same => exact hdiscerns
  | oldest hsegments hnext _ ih =>
    exact ih (hdiscerns.drop_oldest hordered hsegments (hnext.trans hgate))
      (hordered.drop_first hsegments)
  | last hsegments hmax => exact hdiscerns.drop_last hordered hsegments (hmax.trans hgate)

theorem skip (hdiscerns : cursor.Discerns log) {length : Nat} (hlength : length ≤ cursor.available) :
    (cursor.skip length).Discerns log :=
  ⟨hdiscerns.follows.skip hlength, hdiscerns.apart⟩

/-- The file of an exhausted segment is as long as it should be, or it is gone for good. -/
theorem size?_current (hdiscerns : cursor.Discerns stored.log) (hlaid : stored.Laid parts)
    {current next : Segment} {rest : List Segment}
    (hsegments : cursor.segments = current :: next :: rest) :
    ∃ size, stored.dir.size? current.name = .ok size ∧
      size.getD (next.offset - current.offset) = next.offset - current.offset := by
  obtain ⟨gone, live, hsplit, ⟨front, hfront⟩, hgone⟩ := hdiscerns.apart
  rw [hsegments] at hsplit
  cases gone with
  | nil =>
    rw [List.nil_append] at hsplit
    rw [← hsplit] at hfront
    exact ⟨_, size?_of_next hlaid hfront.symm, rfl⟩
  | cons first others =>
    rw [List.cons_append] at hsplit
    obtain ⟨rfl, -⟩ := List.cons.inj hsplit
    have hname := hdiscerns.follows.named hlaid.ordered (hsegments ▸ List.mem_cons_self)
    refine ⟨none, hlaid.sound.size?_of_absent hname fun file hmem => ?_, rfl⟩
    rw [hlaid.files] at hmem
    obtain ⟨part, hpart, hentry⟩ := List.mem_map.mp hmem
    have hlive : part.segment ∈ stored.log.segments := by
      rw [hlaid.segments]
      exact List.mem_map_of_mem hpart
    exact (hgone current List.mem_cons_self).2 part.segment hlive (congrArg Prod.fst hentry).symm

/-- Out of an exhausted segment a cursor moves into the next one. -/
theorem nextSegment (hdiscerns : cursor.Discerns stored.log) (hlaid : stored.Laid parts)
    (hdone : cursor.available = 0) (hmore : 1 < cursor.segments.length) (topic : String) :
    ∃ moved, Cursor.nextSegment topic stored.dir cursor = (.ok (), moved) ∧
      moved.Discerns stored.log ∧ moved.offset = cursor.offset ∧
      moved.segments <:+ cursor.segments := by
  obtain ⟨current, next, rest, hsegments⟩ := exists_next_of_length hmore
  obtain ⟨hplace, hmoved⟩ := hdiscerns.follows.enter hlaid.ordered hdone hsegments
  obtain ⟨size, hsize, hlong⟩ := hdiscerns.size?_current hlaid hsegments
  have hsuffix : next :: rest <:+ cursor.segments := hsegments ▸ List.suffix_cons current _
  exact ⟨_, nextSegment_eq hsegments hplace hsize hlong, hdiscerns.of_suffix hmoved hsuffix, rfl,
    hsuffix⟩

/-- It can always be told whether there is more to read. -/
theorem hasMore (hdiscerns : cursor.Discerns stored.log) (hlaid : stored.Laid parts)
    (topic : String) :
    ∃ more moved, Cursor.hasMore topic stored.dir cursor = (.ok more, moved) ∧
      moved.Discerns stored.log ∧ moved.offset = cursor.offset ∧
      moved.segments <:+ cursor.segments ∧ (more ↔ 0 < moved.available) ∧
      (0 < moved.available ↔ cursor.offset < stored.log.maxOffset) ∧
      (0 < cursor.available → moved = cursor) := by
  fun_induction Cursor.hasMore topic stored.dir cursor with
  | case1 cursor havailable =>
    have hend := hdiscerns.follows.available_le hlaid.ordered
    exact ⟨true, cursor, rfl, hdiscerns, rfl, List.suffix_rfl, by simpa using havailable, by omega,
      fun _ => rfl⟩
  | case2 cursor hdone hshort =>
    have hend := hdiscerns.follows.offset_eq_maxOffset (by omega) hshort
    exact ⟨false, cursor, rfl, hdiscerns, rfl, List.suffix_rfl, by simpa using hdone, by omega,
      fun _ => rfl⟩
  | case3 cursor hdone hlong fault moved hnext =>
    obtain ⟨next, hmove, -⟩ := hdiscerns.nextSegment hlaid (by omega) (by omega) topic
    rw [hnext] at hmove
    cases hmove
  | case4 cursor hdone hlong moved hnext _ ih =>
    obtain ⟨next, hmove, hmoved, hoffset, hsuffix⟩ :=
      hdiscerns.nextSegment hlaid (by omega) (by omega) topic
    obtain rfl : moved = next := (Prod.mk.inj (hnext.symm.trans hmove)).2
    obtain ⟨more, last, hlast, hfollows, hsame, hrest, hmore, hend, -⟩ := ih hmoved
    rw [hoffset] at hsame hend
    exact ⟨more, last, hlast, hfollows, hsame, hrest.trans hsuffix, hmore, hend,
      fun havailable => absurd havailable hdone⟩

/-- There is a next region unless the cursor is at the end of the log. -/
theorem nextRegion (hdiscerns : cursor.Discerns stored.log) (hlaid : stored.Laid parts)
    (topic : String) (limit : Nat) :
    ∃ region? moved, Cursor.nextRegion topic stored.dir cursor limit = (.ok region?, moved) ∧
      moved.Discerns stored.log ∧ moved.offset = cursor.offset ∧
      moved.segments <:+ cursor.segments ∧
      (region? = none ↔ cursor.offset = stored.log.maxOffset) ∧
      (0 < limit → ∀ region, region? = some region →
        moved.Offers region ∧ region.length ≤ limit) := by
  obtain ⟨more, moved, hmore, hmoved, hoffset, hsuffix, hsome, hend, -⟩ :=
    hdiscerns.hasMore hlaid topic
  have hbound := hdiscerns.follows.offset_le hlaid.ordered
  unfold Cursor.nextRegion
  rw [hmore]
  cases more with
  | false =>
    have hdone : ¬ 0 < moved.available := by simpa using hsome
    exact ⟨none, moved, rfl, hmoved, hoffset, hsuffix, by simp only [true_iff]; omega, by simp⟩
  | true =>
    have havailable : 0 < moved.available := by simpa using hsome
    obtain ⟨current, rest, hsegments⟩ : ∃ current rest, moved.segments = current :: rest := by
      refine List.exists_cons_of_ne_nil fun hnil => ?_
      simp [available, hnil] at havailable
    refine ⟨_, moved, rfl, hmoved, hoffset, hsuffix, ?_, fun hlimit region hregion => ?_⟩
    · simp only [hsegments, List.head?_cons, Option.map_some, reduceCtorEq, false_iff]
      omega
    · simp only [hsegments, List.head?_cons, Option.map_some, Option.some.injEq] at hregion
      subst hregion
      refine ⟨⟨by rw [hsegments]; rfl, rfl, rfl, ?_, ?_⟩, ?_⟩
      · exact lt_min havailable hlimit
      · exact min_le_left _ _
      · exact min_le_right _ _

/-- Any number of bytes that the log has left can be walked over. -/
theorem walk (hdiscerns : cursor.Discerns stored.log) (hlaid : stored.Laid parts) (topic : String)
    {length : Nat} (hlength : cursor.offset + length ≤ stored.log.maxOffset) :
    ∃ moved, Cursor.walk topic stored.dir cursor length = (.ok (), moved) ∧
      moved.Discerns stored.log ∧ moved.offset = cursor.offset + length ∧
      moved.segments <:+ cursor.segments := by
  fun_induction Cursor.walk topic stored.dir cursor length with
  | case1 cursor length step skipped left hdone =>
    have hstep : length = step := by omega
    exact ⟨skipped, rfl, hdiscerns.skip (min_le_left _ _), by rw [hstep]; rfl, List.suffix_rfl⟩
  | case2 cursor length step skipped left hleft hshort =>
    have hskipped : skipped.Discerns stored.log := hdiscerns.skip (min_le_left _ _)
    have havailable : skipped.available = 0 := by
      rw [available_skip]
      omega
    have hend := hskipped.follows.offset_eq_maxOffset havailable hshort
    have hplace : skipped.offset = cursor.offset + step := rfl
    omega
  | case3 cursor length step skipped left hleft hlong fault moved hnext =>
    have hskipped : skipped.Discerns stored.log := hdiscerns.skip (min_le_left _ _)
    have havailable : skipped.available = 0 := by
      rw [available_skip]
      omega
    obtain ⟨next, hmove, -⟩ :=
      hskipped.nextSegment hlaid havailable (not_le.mp hlong) topic
    rw [hnext] at hmove
    cases hmove
  | case4 cursor length step skipped left hleft hlong moved hnext _ ih =>
    have hskipped : skipped.Discerns stored.log := hdiscerns.skip (min_le_left _ _)
    have havailable : skipped.available = 0 := by
      rw [available_skip]
      omega
    have hplace : skipped.offset = cursor.offset + step := rfl
    obtain ⟨next, hmove, hmoved, hoffset, hsuffix⟩ :=
      hskipped.nextSegment hlaid havailable (not_le.mp hlong) topic
    obtain rfl : moved = next := (Prod.mk.inj (hnext.symm.trans hmove)).2
    obtain ⟨last, hlast, hfollows, hsame, hrest⟩ := ih hmoved (by omega)
    exact ⟨last, hlast, hfollows, by omega, hrest.trans hsuffix⟩

/-- Any number of bytes that the log has left can be given up. -/
theorem consume (hdiscerns : cursor.Discerns stored.log) (hlaid : stored.Laid parts)
    {length : Nat} (hlength : cursor.offset + length ≤ stored.log.maxOffset) (topic : String) :
    ∃ moved, Cursor.consume topic stored.dir cursor length = (.ok (), moved) ∧
      moved.Discerns stored.log ∧ moved.offset = cursor.offset + length ∧
      moved.segments <:+ cursor.segments := by
  have hmax := hdiscerns.follows.maxOffset_eq
  obtain ⟨walked, hwalk, hwalked, hoffset, hsuffix⟩ := hdiscerns.walk hlaid topic hlength
  unfold Cursor.consume
  simp only [if_neg (show ¬ cursor.maxOffset < cursor.offset + length by omega), hwalk]
  by_cases hnext : walked.available = 0 ∧ 1 < walked.segments.length
  · rw [if_pos hnext]
    obtain ⟨moved, hmove, hmoved, hsame, hrest⟩ :=
      hwalked.nextSegment hlaid hnext.1 hnext.2 topic
    exact ⟨moved, hmove, hmoved, hsame.trans hoffset, hrest.trans hsuffix⟩
  · rw [if_neg hnext]
    exact ⟨walked, rfl, hwalked, hoffset, hsuffix⟩

end Discerns

end Cursor

end ReplicatedLog
