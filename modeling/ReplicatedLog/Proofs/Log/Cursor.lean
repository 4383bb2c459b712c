import ReplicatedLog.Log.Cursor
import ReplicatedLog.Proofs.Log.Append
import ReplicatedLog.Proofs.Log.Retention

namespace ReplicatedLog

namespace TopicLog

/-- The segments have the names of their offsets, and these ascend up to the end of the log. -/
structure Ordered (log : TopicLog) : Prop where
  ascending : log.segments.Pairwise fun segment next => segment.offset < next.offset
  bounded : ∀ segment ∈ log.segments, segment.offset ≤ log.maxOffset
  named : ∀ segment ∈ log.segments, SegmentName.offset segment.name = .ok segment.offset

theorem firstOffset_of_cons {log : TopicLog} {first : Segment} {rest : List Segment}
    (hsegments : log.segments = first :: rest) : log.firstOffset = first.offset := by
  simp [firstOffset, hsegments]

theorem firstOffset_of_nil {log : TopicLog} (hsegments : log.segments = []) :
    log.firstOffset = log.maxOffset := by
  simp [firstOffset, hsegments]

theorem Ordered.firstOffset_le {log : TopicLog} (hordered : log.Ordered) {segment : Segment}
    (hmem : segment ∈ log.segments) : log.firstOffset ≤ segment.offset := by
  cases hsegments : log.segments with
  | nil => simp [hsegments] at hmem
  | cons first rest =>
    rw [firstOffset_of_cons hsegments]
    have hfirst := (List.pairwise_cons.mp (hsegments ▸ hordered.ascending)).1
    rcases List.mem_cons.mp (hsegments ▸ hmem) with rfl | hrest
    · exact le_rfl
    · exact (hfirst segment hrest).le

theorem Ordered.drop_first {log : TopicLog} {first : Segment} {rest : List Segment}
    (hordered : log.Ordered) (hsegments : log.segments = first :: rest) :
    Ordered { log with segments := rest } where
  ascending := (List.pairwise_cons.mp (hsegments ▸ hordered.ascending)).2
  bounded segment hmem := hordered.bounded segment (hsegments ▸ List.mem_cons_of_mem _ hmem)
  named segment hmem := hordered.named segment (hsegments ▸ List.mem_cons_of_mem _ hmem)

end TopicLog

theorem StoredLog.Laid.ordered {stored : StoredLog} {parts : List Part}
    (hlaid : stored.Laid parts) : stored.log.Ordered where
  ascending := hlaid.contiguous.ascending
  bounded segment hmem := by
    rw [hlaid.segments] at hmem
    obtain ⟨part, hpart, rfl⟩ := List.mem_map.mp hmem
    have hstop := (hlaid.chained.bounds hpart).2
    omega
  named segment hmem := by
    rw [hlaid.segments] at hmem
    obtain ⟨part, hpart, rfl⟩ := List.mem_map.mp hmem
    exact hlaid.named part hpart

namespace Cursor

/-- A cursor knows where the log ends, and every segment from its place on. It stands in a segment
    of the log, or where segments that are gone ended and the log goes on. -/
inductive Follows (cursor : Cursor) (log : TopicLog) : Prop
  | reading (passed : List Segment) (current : Segment) (rest : List Segment)
      (hsegments : log.segments = passed ++ current :: rest)
      (hcursor : cursor.segments = current :: rest)
      (hposition : cursor.offset = current.offset + cursor.position)
      (hboundary : cursor.boundary = segmentEnd (current :: rest) log.maxOffset)
      (hoffset : cursor.offset ≤ cursor.boundary)
      (hmax : cursor.maxOffset = log.maxOffset)
  | waiting (gone : List Segment)
      (hcursor : cursor.segments = gone ++ log.segments)
      (hoffset : cursor.offset = log.firstOffset)
      (hgone : ∀ segment ∈ gone.tail, segment.offset = cursor.offset)
      (hnamed : ∀ segment ∈ gone, SegmentName.offset segment.name = .ok segment.offset)
      (hnone : gone = [] → log.segments = [])
      (hboundary : cursor.boundary = cursor.offset)
      (hmax : cursor.maxOffset = log.maxOffset)

variable {cursor moved : Cursor} {log : TopicLog}

theorem segmentEnd_le (hordered : log.Ordered) {passed rest : List Segment} {current : Segment}
    (hsegments : log.segments = passed ++ current :: rest) :
    segmentEnd (current :: rest) log.maxOffset ≤ log.maxOffset := by
  cases rest with
  | nil => exact le_rfl
  | cons next others =>
    refine hordered.bounded next ?_
    rw [hsegments]
    simp

theorem le_segmentEnd (hordered : log.Ordered) {passed rest : List Segment} {current : Segment}
    (hsegments : log.segments = passed ++ current :: rest) :
    current.offset ≤ segmentEnd (current :: rest) log.maxOffset := by
  cases rest with
  | nil =>
    refine hordered.bounded current ?_
    rw [hsegments]
    simp
  | cons next others =>
    have hascending := hordered.ascending
    rw [hsegments, List.pairwise_append] at hascending
    exact ((List.pairwise_cons.mp hascending.2.1).1 next List.mem_cons_self).le

/-- Where segments are gone, the next one starts where the log does now. -/
theorem segmentEnd_gone {gone live : List Segment} {offset maxOffset : Nat} (hgone : gone ≠ [])
    (htail : ∀ segment ∈ gone.tail, segment.offset = offset)
    (hlive : (live.head?.map (·.offset)).getD maxOffset = offset) :
    segmentEnd (gone ++ live) maxOffset = offset := by
  obtain ⟨first, others, rfl⟩ := List.exists_cons_of_ne_nil hgone
  cases others with
  | nil => cases live <;> exact hlive
  | cons second rest => exact htail second List.mem_cons_self

namespace Follows

theorem maxOffset_eq (hfollows : cursor.Follows log) : cursor.maxOffset = log.maxOffset := by
  cases hfollows <;> assumption

theorem offset_le (hfollows : cursor.Follows log) (hordered : log.Ordered) :
    cursor.offset ≤ log.maxOffset := by
  cases hfollows with
  | reading passed current rest hsegments _ _ hboundary hoffset _ =>
    rw [hboundary] at hoffset
    exact hoffset.trans (segmentEnd_le hordered hsegments)
  | waiting _ _ hoffset _ _ _ _ _ =>
    rw [hoffset]
    cases hsegments : log.segments with
    | nil => exact (TopicLog.firstOffset_of_nil hsegments).le
    | cons first rest =>
      rw [TopicLog.firstOffset_of_cons hsegments]
      exact hordered.bounded first (hsegments ▸ List.mem_cons_self)

theorem firstOffset_le (hfollows : cursor.Follows log) (hordered : log.Ordered) :
    log.firstOffset ≤ cursor.offset := by
  cases hfollows with
  | reading passed current rest hsegments _ hposition _ _ _ =>
    have hmem : current ∈ log.segments := by
      rw [hsegments]
      simp
    have hle := hordered.firstOffset_le hmem
    omega
  | waiting _ _ hoffset _ _ _ _ _ => exact hoffset.ge

theorem available_le (hfollows : cursor.Follows log) (hordered : log.Ordered) :
    cursor.offset + cursor.available ≤ log.maxOffset := by
  have hle := hfollows.offset_le hordered
  unfold available
  split
  · exact hle
  · cases hfollows with
    | reading passed current rest hsegments _ _ hboundary _ _ =>
      have hend := segmentEnd_le hordered hsegments
      omega
    | waiting => omega

/-- Bytes added behind the last segment are noted. -/
theorem addBytes (hfollows : cursor.Follows log) (hsegments : log.segments ≠ []) (length : Nat) :
    (cursor.addBytes length).Follows (log.addBytes length) := by
  cases hfollows with
  | reading passed current rest hsplit hcursor hposition hboundary hoffset hmax =>
    refine .reading passed current rest hsplit hcursor hposition ?_ ?_ (congrArg (· + length) hmax)
    · cases rest with
      | nil => simp [Cursor.addBytes, hcursor, segmentEnd, hmax, TopicLog.addBytes]
      | cons next others => simp [Cursor.addBytes, hcursor, hboundary, segmentEnd]
    · cases rest with
      | nil =>
        have hend : cursor.boundary = log.maxOffset := hboundary
        have hmoved : (cursor.addBytes length).boundary = cursor.maxOffset + length := by
          simp [Cursor.addBytes, hcursor]
        rw [hmoved]
        change cursor.offset ≤ cursor.maxOffset + length
        omega
      | cons next others => simpa [Cursor.addBytes, hcursor] using hoffset
  | waiting gone hcursor hoffset hgone hnamed hnone hboundary hmax =>
    have hfirst := TopicLog.firstOffset_addBytes hsegments length
    obtain ⟨first, others, rfl⟩ := List.exists_cons_of_ne_nil (mt hnone hsegments)
    obtain ⟨live, rest, hlive⟩ := List.exists_cons_of_ne_nil hsegments
    refine .waiting (first :: others) hcursor (hfirst ▸ hoffset) hgone hnamed (by simp) ?_
      (congrArg (· + length) hmax)
    have hlong : ¬ cursor.segments.length ≤ 1 := by
      rw [hcursor, hlive]
      simp
    simp only [Cursor.addBytes, if_neg hlong]
    exact hboundary

/-- A segment added at the end is noted. -/
theorem addSegment (hfollows : cursor.Follows log) {segment : Segment}
    (hsegment : segment.offset = log.maxOffset) :
    (cursor.addSegment segment).Follows (log.addSegment segment) := by
  have hfirst := (TopicLog.Widened.added segment hsegment).firstOffset_eq
  cases hfollows with
  | reading passed current rest hsplit hcursor hposition hboundary hoffset hmax =>
    have hsame : (cursor.addSegment segment).boundary = cursor.boundary := by
      cases rest with
      | nil => simpa [Cursor.addSegment, hcursor, segmentEnd, hsegment] using hboundary.symm
      | cons next others => simpa [Cursor.addSegment, hcursor, segmentEnd] using hboundary.symm
    refine .reading passed current (rest ++ [segment]) ?_ ?_ ?_ ?_ (hsame ▸ hoffset) hmax
    · simp [TopicLog.addSegment, hsplit]
    · simp [Cursor.addSegment, hcursor]
    · simpa [Cursor.addSegment, hcursor] using hposition
    · simp [Cursor.addSegment, hcursor, hmax, TopicLog.addSegment, TopicLog.mapCursors]
  | waiting gone hcursor hoffset hgone hnamed hnone hboundary hmax =>
    by_cases hempty : gone = []
    · have hnil := hnone hempty
      have hend : cursor.offset = segment.offset := by
        rw [hoffset, TopicLog.firstOffset_of_nil hnil, hsegment]
      have hcursorNil : cursor.segments = [] := by rw [hcursor, hempty, hnil, List.nil_append]
      refine .reading [] segment [] ?_ ?_ ?_ ?_ ?_ hmax
      · simp [TopicLog.addSegment, hnil]
      · simp [Cursor.addSegment, hcursorNil]
      · simp [Cursor.addSegment, hcursorNil, hend]
      · simp [Cursor.addSegment, hcursorNil, segmentEnd, hmax, TopicLog.addSegment,
          TopicLog.mapCursors]
      · simp [Cursor.addSegment, hcursorNil, segmentEnd, hmax, hend, hsegment]
    · have hlive : (((log.segments ++ [segment]).head?.map (·.offset)).getD cursor.maxOffset) =
          cursor.offset := by
        rw [hmax, hoffset, ← hfirst]
        rfl
      have hend := segmentEnd_gone hempty hgone hlive
      refine .waiting gone ?_ (hoffset.trans hfirst.symm) hgone hnamed (absurd · hempty) ?_ hmax
      · simp [Cursor.addSegment, TopicLog.addSegment, hcursor]
      · simpa [Cursor.addSegment, hcursor] using hend

/-- The oldest segment is taken only from behind a cursor. -/
theorem drop_oldest (hfollows : cursor.Follows log) (hordered : log.Ordered)
    {oldest next : Segment} {rest : List Segment}
    (hsegments : log.segments = oldest :: next :: rest) (hgate : next.offset ≤ cursor.offset) :
    cursor.Follows { log with segments := next :: rest } := by
  have hascending := (List.pairwise_cons.mp (hsegments ▸ hordered.ascending)).1
  have hlt := hascending next List.mem_cons_self
  cases hfollows with
  | reading passed current others hsplit hcursor hposition hboundary hoffset hmax =>
    rw [hsegments] at hsplit
    cases passed with
    | cons first passed =>
      obtain ⟨-, hsplit⟩ := List.cons.inj hsplit
      exact .reading passed current others hsplit hcursor hposition hboundary hoffset hmax
    | nil =>
      obtain ⟨rfl, rfl⟩ := List.cons.inj hsplit
      have hend : cursor.boundary = next.offset := hboundary
      have hplace : cursor.offset = next.offset := by omega
      refine .waiting [oldest] hcursor hplace (by simp) ?_ (by simp) (hend.trans hplace.symm) hmax
      intro segment hmem
      obtain rfl := List.mem_singleton.mp hmem
      exact hordered.named segment (hsegments ▸ List.mem_cons_self)
  | waiting gone _ hoffset _ _ _ _ _ =>
    rw [TopicLog.firstOffset_of_cons hsegments] at hoffset
    omega

/-- The last segment is taken only where a cursor stands at the end. -/
theorem drop_last (hfollows : cursor.Follows log) (hordered : log.Ordered) {last : Segment}
    (hsegments : log.segments = [last]) (hgate : log.maxOffset ≤ cursor.offset) :
    cursor.Follows { log with segments := [], active := none } := by
  have hend : cursor.offset = log.maxOffset := le_antisymm (hfollows.offset_le hordered) hgate
  have hlast := hordered.named last (hsegments ▸ List.mem_cons_self)
  cases hfollows with
  | reading passed current others hsplit hcursor hposition hboundary hoffset hmax =>
    rw [hsegments] at hsplit
    cases passed with
    | cons first passed => simp at hsplit
    | nil =>
      obtain ⟨rfl, rfl⟩ := List.cons.inj hsplit
      refine .waiting [last] hcursor hend (by simp) ?_ (by simp) (hboundary.trans hend.symm) hmax
      intro segment hmem
      rwa [List.mem_singleton.mp hmem]
  | waiting gone hcursor hoffset hgone hnamed hnone hboundary hmax =>
    rw [hsegments] at hcursor hnone
    have hstart := hoffset.trans (TopicLog.firstOffset_of_cons hsegments)
    refine .waiting (gone ++ [last]) (by simpa using hcursor) hend ?_ ?_ (by simp) hboundary hmax
    · intro segment hmem
      rw [List.tail_append_of_ne_nil (mt hnone (by simp))] at hmem
      rcases List.mem_append.mp hmem with hmem | hmem
      · exact hgone segment hmem
      · rw [List.mem_singleton.mp hmem]
        exact hstart.symm
    · intro segment hmem
      rcases List.mem_append.mp hmem with hmem | hmem
      · exact hnamed segment hmem
      · rwa [List.mem_singleton.mp hmem]

/-- A cleanup up to the place of a cursor does not disturb it. -/
theorem cleaned (hfollows : cursor.Follows log) (hordered : log.Ordered) {gate : Nat}
    {after : TopicLog} (hcleaned : log.Cleaned gate after) (hgate : gate ≤ cursor.offset) :
    cursor.Follows after := by
  induction hcleaned with
  | same => exact hfollows
  | oldest hsegments hnext _ ih =>
    exact ih (hfollows.drop_oldest hordered hsegments (hnext.trans hgate))
      (hordered.drop_first hsegments)
  | last hsegments hmax => exact hfollows.drop_last hordered hsegments (hmax.trans hgate)

end Follows

end Cursor

end ReplicatedLog
