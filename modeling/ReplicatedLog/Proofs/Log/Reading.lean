import ReplicatedLog.Proofs.Log.Cursor

namespace ReplicatedLog

/-- A region holds bytes of one segment of the log. -/
structure Region.Within (region : Region) (log : TopicLog) : Prop where
  placed : ∃ passed rest, log.segments = passed ++ region.segment :: rest ∧
    region.offset + region.length ≤ Cursor.segmentEnd (region.segment :: rest) log.maxOffset
  position : region.offset = region.segment.offset + region.position

/-- A segment ends where its file does. -/
theorem Part.Chained.segmentEnd_eq {start stop : Nat} {front back : List Part} {part : Part}
    (hchained : Part.Chained start (front ++ part :: back) stop) :
    Cursor.segmentEnd (part.segment :: back.map (·.segment)) stop =
      part.segment.offset + part.file.bytes.length := by
  cases back with
  | nil => exact (hchained.stop_of_getLast? List.getLast?_concat).symm
  | cons next others =>
    exact (List.isChain_append_cons_cons.mp hchained.adjacent).2.1.symm

namespace Cursor

variable {cursor : Cursor} {log : TopicLog} {stored : StoredLog} {parts : List Part}

/-- A cursor that could move within a log, or was stopped where two segments do not line up. -/
inductive Moves {α : Type} (log : TopicLog) (offset : Nat) (holds : α → Cursor → Prop) :
    Except Fault α × Cursor → Prop
  | ok {result : α} {moved : Cursor} (hfollows : moved.Follows log) (hoffset : moved.offset = offset)
      (hholds : holds result moved) : Moves log offset holds (.ok result, moved)
  | gap {gap : Gap} {moved : Cursor} (hoffset : moved.offset = offset)
      (hmax : moved.maxOffset = log.maxOffset) :
      Moves log offset holds (.error (.discontinuity gap), moved)

/-- The segments from an offset on start at or before it, and the next one behind it. -/
theorem segmentsFrom_spec (offset : Nat) (segments : List Segment) :
    ∃ passed, segments = passed ++ segmentsFrom offset segments ∧
      (segments ≠ [] → segmentsFrom offset segments ≠ []) ∧
      (∀ current next rest, segmentsFrom offset segments = current :: next :: rest →
        offset < next.offset) ∧
      (passed ≠ [] → ∀ current rest, segmentsFrom offset segments = current :: rest →
        current.offset ≤ offset) := by
  fun_induction segmentsFrom offset segments with
  | case1 first next rest hle ih =>
    obtain ⟨passed, hsplit, hsome, hnext, hfirst⟩ := ih
    refine ⟨first :: passed, by rw [List.cons_append, ← hsplit], fun _ => hsome (by simp), hnext, ?_⟩
    intro _ current others hcurrent
    cases passed with
    | nil =>
      rw [List.nil_append, hcurrent] at hsplit
      rwa [← (List.cons.inj hsplit).1]
    | cons second passed => exact hfirst (by simp) current others hcurrent
  | case2 first next rest hlt =>
    refine ⟨[], rfl, fun _ => by simp, ?_, by simp⟩
    intro current second others hcurrent
    obtain ⟨-, hrest⟩ := List.cons.inj hcurrent
    rw [← (List.cons.inj hrest).1]
    exact not_le.mp hlt
  | case3 segments hshort =>
    refine ⟨[], rfl, id, ?_, by simp⟩
    intro current next rest hsegments
    exact absurd hsegments (hshort current next rest)

/-- A cursor can be placed wherever the log still is. -/
theorem exists_place {offset : Nat} (hfirst : log.firstOffset ≤ offset)
    (hlast : offset ≤ log.maxOffset) :
    ∃ cursor, place log.segments log.maxOffset offset = .ok cursor := by
  obtain ⟨passed, hsplit, hsome, -, hstart⟩ := segmentsFrom_spec offset log.segments
  have hle : ((segmentsFrom offset log.segments).head?.map (·.offset)).getD log.maxOffset ≤
      offset := by
    cases hfrom : segmentsFrom offset log.segments with
    | nil =>
      have hnil : log.segments = [] := by_contra fun hne => hsome hne hfrom
      rw [TopicLog.firstOffset_of_nil hnil] at hfirst
      exact hfirst
    | cons current rest =>
      cases passed with
      | nil =>
        rw [hfrom] at hsplit
        rw [TopicLog.firstOffset_of_cons hsplit] at hfirst
        exact hfirst
      | cons first passed => exact hstart (by simp) current rest hfrom
  unfold place
  rw [if_neg (not_lt.mpr hlast)]
  exact ⟨_, if_neg (not_lt.mpr hle)⟩

/-- A cursor that was placed follows the log from where it was wanted. -/
theorem follows_of_place {offset : Nat}
    (hplace : place log.segments log.maxOffset offset = .ok cursor) :
    cursor.Follows log ∧ cursor.offset = offset := by
  obtain ⟨passed, hsplit, hsome, hnext, -⟩ := segmentsFrom_spec offset log.segments
  unfold place at hplace
  by_cases hbeyond : log.maxOffset < offset
  · rw [if_pos hbeyond] at hplace
    cases hplace
  · rw [if_neg hbeyond] at hplace
    cases hfrom : segmentsFrom offset log.segments with
    | nil =>
      have hnil : log.segments = [] := by_contra fun hne => hsome hne hfrom
      simp only [hfrom, List.head?_nil, Option.map_none, Option.getD_none] at hplace
      by_cases hdeleted : offset < log.maxOffset
      · rw [if_pos hdeleted] at hplace
        cases hplace
      · rw [if_neg hdeleted] at hplace
        have hend : offset = log.maxOffset := le_antisymm (not_lt.mp hbeyond) (not_lt.mp hdeleted)
        obtain rfl := Except.ok.inj hplace
        refine ⟨.waiting [] (by simp [hnil]) ?_ (by simp) (by simp) (fun _ => hnil) hend.symm rfl,
          rfl⟩
        exact hend.trans (TopicLog.firstOffset_of_nil hnil).symm
    | cons current rest =>
      simp only [hfrom, List.head?_cons, Option.map_some, Option.getD_some] at hplace
      by_cases hdeleted : offset < current.offset
      · rw [if_pos hdeleted] at hplace
        cases hplace
      · rw [if_neg hdeleted] at hplace
        obtain rfl := Except.ok.inj hplace
        rw [hfrom] at hsplit
        refine ⟨.reading passed current rest hsplit rfl ?_ rfl ?_ rfl, rfl⟩
        · exact (Nat.add_sub_cancel' (not_lt.mp hdeleted)).symm
        · cases rest with
          | nil => exact not_lt.mp hbeyond
          | cons next others => exact (hnext current next others hfrom).le

/-- The file of a segment reaches up to the next one. -/
theorem size?_of_next (hlaid : stored.Laid parts) {passed rest : List Segment}
    {current next : Segment} (hsegments : stored.log.segments = passed ++ current :: next :: rest) :
    stored.dir.size? current.name = .ok (some (next.offset - current.offset)) := by
  obtain ⟨front, part, back, rfl, rfl, rfl, hrest⟩ := hlaid.exists_split hsegments
  obtain ⟨following, others, rfl, rfl, rfl⟩ := List.map_eq_cons_iff.mp hrest.symm
  have hadjacent := (List.isChain_append_cons_cons.mp hlaid.chained.adjacent).2.1
  rw [hlaid.size?_of_mem (by simp)]
  congr
  omega

/-- Whatever segments a cursor knows of bear the names of their offsets. -/
theorem Follows.named (hfollows : cursor.Follows log) (hordered : log.Ordered) {segment : Segment}
    (hmem : segment ∈ cursor.segments) : SegmentName.offset segment.name = .ok segment.offset := by
  cases hfollows with
  | reading passed current rest hsegments hcursor _ _ _ _ =>
    apply hordered.named
    rw [hsegments]
    exact List.mem_append_right _ (hcursor ▸ hmem)
  | waiting gone hcursor _ _ hnamed _ _ _ =>
    rcases List.mem_append.mp (hcursor ▸ hmem) with hgone | hlive
    · exact hnamed segment hgone
    · exact hordered.named segment hlive

/-- The next segment starts where a cursor is through with the current one, and inside it the cursor
    goes on following the log. -/
theorem Follows.enter (hfollows : cursor.Follows log) (hordered : log.Ordered)
    (hdone : cursor.available = 0) {current next : Segment} {rest : List Segment}
    (hsegments : cursor.segments = current :: next :: rest) :
    next.offset = cursor.offset ∧
      Follows { cursor with
        segments := next :: rest
        position := 0
        boundary := segmentEnd (next :: rest) cursor.maxOffset } log := by
  cases hfollows with
  | reading passed first others hsplit hcursor hposition hboundary hoffset hmax =>
    obtain ⟨rfl, rfl⟩ := List.cons.inj (hcursor.symm.trans hsegments)
    have hend : cursor.boundary = next.offset := hboundary
    have hplace : next.offset = cursor.offset := by
      simp only [available, hcursor, List.isEmpty_cons, Bool.false_eq_true, if_false] at hdone
      omega
    have hnext : log.segments = (passed ++ [first]) ++ next :: rest := by simpa using hsplit
    refine ⟨hplace, .reading (passed ++ [first]) next rest hnext rfl hplace.symm (by rw [hmax]) ?_
      hmax⟩
    rw [← hplace, hmax]
    exact le_segmentEnd hordered hnext
  | waiting gone hcursor hoffset hgone hnamed hnone hboundary hmax =>
    rw [hsegments] at hcursor
    cases gone with
    | nil =>
      rw [hnone rfl] at hcursor
      cases hcursor
    | cons first others =>
      rw [List.cons_append] at hcursor
      obtain ⟨rfl, hrest⟩ := List.cons.inj hcursor
      have hplace : next.offset = cursor.offset := by
        have hend := segmentEnd_gone (List.cons_ne_nil current others) hgone hoffset.symm
        rwa [List.cons_append, ← hrest] at hend
      refine ⟨hplace, ?_⟩
      cases others with
      | nil =>
        have hnext : log.segments = [] ++ next :: rest := hrest.symm
        refine .reading [] next rest hnext rfl hplace.symm (by rw [hmax]) ?_ hmax
        rw [← hplace, hmax]
        exact le_segmentEnd hordered hnext
      | cons second others =>
        have htail : ∀ segment ∈ (second :: others).tail, segment.offset = cursor.offset :=
          fun segment hmem => hgone segment (List.mem_cons_of_mem _ hmem)
        refine .waiting (second :: others) hrest hoffset htail ?_ (by simp) ?_ hmax
        · exact fun segment hmem => hnamed segment (List.mem_cons_of_mem _ hmem)
        · rw [hrest, hmax]
          exact segmentEnd_gone (List.cons_ne_nil _ _) htail hoffset.symm

/-- A cursor enters the next segment where the file of the current one is as long as it should be. -/
theorem nextSegment_eq {topic : String} {dir : Directory} {current next : Segment}
    {rest : List Segment} {size : Option Nat}
    (hsegments : cursor.segments = current :: next :: rest) (hplace : next.offset = cursor.offset)
    (hsize : dir.size? current.name = .ok size)
    (hlong : size.getD (next.offset - current.offset) = next.offset - current.offset) :
    nextSegment topic dir cursor = (.ok (), { cursor with
      segments := next :: rest
      position := 0
      boundary := segmentEnd (next :: rest) cursor.maxOffset }) := by
  simp [nextSegment, hsegments, hplace, hsize, hplace ▸ hlong]

theorem exists_next_of_length (hmore : 1 < cursor.segments.length) :
    ∃ current next rest, cursor.segments = current :: next :: rest := by
  match hsegments : cursor.segments with
  | [] | [_] => simp [hsegments] at hmore
  | current :: next :: rest => exact ⟨current, next, rest, rfl⟩

/-- Out of an exhausted segment a cursor moves into the next one. -/
theorem nextSegment_spec (hlaid : stored.Laid parts) (hfollows : cursor.Follows stored.log)
    (hdone : cursor.available = 0) (hmore : 1 < cursor.segments.length) (topic : String) :
    Moves stored.log cursor.offset (fun _ moved => moved.segments = cursor.segments.tail)
      (nextSegment topic stored.dir cursor) := by
  obtain ⟨current, next, rest, hsegments⟩ := exists_next_of_length hmore
  obtain ⟨hplace, hmoved⟩ := hfollows.enter hlaid.ordered hdone hsegments
  have hname := hfollows.named hlaid.ordered (hsegments ▸ List.mem_cons_self)
  obtain ⟨size, hsize⟩ := hlaid.sound.exists_size? hname
  by_cases hlong : size.getD (next.offset - current.offset) = next.offset - current.offset
  · rw [nextSegment_eq hsegments hplace hsize hlong]
    exact .ok hmoved rfl (by rw [hsegments]; rfl)
  · have hgap : ∃ gap, nextSegment topic stored.dir cursor =
        (.error (.discontinuity gap), { cursor with segments := next :: rest }) := by
      simp [nextSegment, hsegments, hplace, hsize, hplace ▸ hlong]
    obtain ⟨gap, hgap⟩ := hgap
    rw [hgap]
    exact .gap rfl hfollows.maxOffset_eq

/-- A cursor that is through with its only segment stands at the end of the log. -/
theorem Follows.offset_eq_maxOffset (hfollows : cursor.Follows log) (hdone : cursor.available = 0)
    (hlast : cursor.segments.length ≤ 1) : cursor.offset = log.maxOffset := by
  cases hfollows with
  | reading passed current rest hsegments hcursor hposition hboundary hoffset hmax =>
    cases rest with
    | nil =>
      have hend : cursor.boundary = log.maxOffset := hboundary
      simp only [available, hcursor, List.isEmpty_cons, Bool.false_eq_true, if_false] at hdone
      omega
    | cons next others => simp [hcursor] at hlast
  | waiting gone hcursor hoffset hgone hnamed hnone hboundary hmax =>
    have hnil : log.segments = [] := by
      cases gone with
      | nil => exact hnone rfl
      | cons first others =>
        rw [hcursor, List.cons_append, List.length_cons, List.length_append] at hlast
        exact List.length_eq_zero_iff.mp (by omega)
    exact hoffset.trans (TopicLog.firstOffset_of_nil hnil)

/-- There is more to read for a cursor exactly as long as it is not at the end of the log. -/
theorem hasMore_spec (hlaid : stored.Laid parts) (hfollows : cursor.Follows stored.log)
    (topic : String) :
    Moves stored.log cursor.offset
      (fun more moved => if more then 0 < moved.available else moved.offset = stored.log.maxOffset)
      (hasMore topic stored.dir cursor) := by
  fun_induction hasMore topic stored.dir cursor with
  | case1 cursor havailable => exact .ok hfollows rfl havailable
  | case2 cursor hdone hshort =>
    exact .ok hfollows rfl (hfollows.offset_eq_maxOffset (by omega) hshort)
  | case3 cursor hdone hlong fault moved hnext =>
    have hspec := nextSegment_spec hlaid hfollows (by omega) (by omega) topic
    rw [hnext] at hspec
    cases hspec with
    | gap hoffset hmax => exact .gap hoffset hmax
  | case4 cursor hdone hlong moved hnext _ ih =>
    have hspec := nextSegment_spec hlaid hfollows (by omega) (by omega) topic
    rw [hnext] at hspec
    cases hspec with
    | ok hmoved hoffset _ =>
      rw [← hoffset]
      exact ih hmoved

/-- The next region starts where the cursor stands, and the cursor has its bytes before it. -/
theorem nextRegion_spec (hlaid : stored.Laid parts) (hfollows : cursor.Follows stored.log)
    (topic : String) (limit : Nat) :
    Moves stored.log cursor.offset
      (fun region? moved => match region? with
        | none => moved.offset = stored.log.maxOffset
        | some region => region.Within stored.log ∧ region.offset = moved.offset ∧
          region.length = min moved.available limit ∧ 0 < moved.available)
      (nextRegion topic stored.dir cursor limit) := by
  have hspec := hasMore_spec hlaid hfollows topic
  unfold nextRegion
  rcases hmore : hasMore topic stored.dir cursor with ⟨_ | more, moved⟩
  · rw [hmore] at hspec
    cases hspec with
    | gap hoffset hmax => exact .gap hoffset hmax
  · rw [hmore] at hspec
    cases hspec with
    | ok hmoved hoffset hholds =>
      cases more with
      | false => exact .ok hmoved hoffset (by simpa using hholds)
      | true =>
        have havailable : 0 < moved.available := by simpa using hholds
        refine .ok hmoved hoffset ?_
        cases hmoved with
        | reading passed current rest hsegments hcursor hposition hboundary hbound hmax =>
          have hlength : moved.available = moved.boundary - moved.offset := by
            simp [available, hcursor]
          simp only [hcursor, List.head?_cons, Option.map_some]
          refine ⟨⟨⟨passed, rest, hsegments, ?_⟩, hposition⟩, trivial, trivial, havailable⟩
          rw [← hboundary]
          dsimp only
          omega
        | waiting gone hcursor _ _ _ _ hboundary _ =>
          unfold available at havailable
          split at havailable <;> omega

theorem walk_eq {length : Nat} (hlength : length ≤ cursor.available) (topic : String)
    (dir : Directory) : walk topic dir cursor length = (.ok (), cursor.skip length) := by
  unfold walk
  simp [Nat.min_eq_right hlength]

theorem Follows.skip (hfollows : cursor.Follows log) {length : Nat}
    (hlength : length ≤ cursor.available) : (cursor.skip length).Follows log := by
  cases hfollows with
  | reading passed current rest hsegments hcursor hposition hboundary hoffset hmax =>
    have hlong : cursor.available = cursor.boundary - cursor.offset := by
      simp [available, hcursor]
    refine .reading passed current rest hsegments hcursor ?_ hboundary ?_ hmax
    · simp only [Cursor.skip]
      omega
    · simp only [Cursor.skip]
      omega
  | waiting gone hcursor hoffset hgone hnamed hnone hboundary hmax =>
    have hzero : length = 0 := by
      unfold available at hlength
      split at hlength <;> omega
    subst hzero
    exact .waiting gone hcursor hoffset hgone hnamed hnone hboundary hmax

/-- Bytes that are available can be given up, unless the next segment cannot be entered. Either way
    the cursor stands behind them. -/
theorem consume_spec (hlaid : stored.Laid parts) (hfollows : cursor.Follows stored.log)
    {length : Nat} (hlength : length ≤ cursor.available) (topic : String) :
    Moves stored.log (cursor.offset + length) (fun _ _ => True)
      (consume topic stored.dir cursor length) := by
  have hbound := hfollows.available_le hlaid.ordered
  have hmax := hfollows.maxOffset_eq
  have hskipped := hfollows.skip hlength
  unfold consume
  simp only [if_neg (show ¬ cursor.maxOffset < cursor.offset + length by omega), walk_eq hlength]
  by_cases hnext : (cursor.skip length).available = 0 ∧ 1 < (cursor.skip length).segments.length
  · rw [if_pos hnext]
    have hspec := nextSegment_spec hlaid hskipped hnext.1 hnext.2 topic
    rcases hmove : nextSegment topic stored.dir (cursor.skip length) with ⟨_ | _, moved⟩
    · rw [hmove] at hspec
      cases hspec with
      | gap hoffset hmax => exact .gap hoffset hmax
    · rw [hmove] at hspec
      cases hspec with
      | ok hmoved hoffset _ => exact .ok hmoved hoffset trivial
  · rw [if_neg hnext]
    exact .ok hskipped rfl trivial

end Cursor

end ReplicatedLog
