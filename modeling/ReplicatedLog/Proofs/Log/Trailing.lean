import ReplicatedLog.Proofs.Log.Discerning
import ReplicatedLog.Proofs.Log.History

namespace ReplicatedLog

/-- A cursor that follows a log. The segments that it still knows of, and the log does not, start
    before the log. -/
structure Cursor.Trails (cursor : Cursor) (log : TopicLog) : Prop where
  follows : cursor.Follows log
  behind : ∃ gone live, cursor.segments = gone ++ live ∧ live <:+ log.segments ∧
    ∀ segment ∈ gone, segment.offset < log.firstOffset

namespace Cursor

variable {cursor moved : Cursor} {log after : TopicLog} {stored : StoredLog} {parts : List Part}
  {region : Region}

namespace Offers

theorem segments_ne_nil (hoffers : cursor.Offers region) : cursor.segments ≠ [] := by
  intro hnil
  have hcurrent := hoffers.current
  rw [hnil] at hcurrent
  cases hcurrent

theorem available_pos (hoffers : cursor.Offers region) : 0 < cursor.available :=
  hoffers.positive.trans_le hoffers.length_le

theorem within (hoffers : cursor.Offers region) (hfollows : cursor.Follows log) :
    region.Within log := by
  have havailable := hoffers.available_pos
  have hlength := hoffers.length_le
  have hcurrent := hoffers.current
  have hposition := hoffers.position
  have hoffset := hoffers.offset
  cases hfollows with
  | reading passed current rest hsegments hcursor hplace hboundary hbound hmax =>
    rw [hcursor, List.head?_cons, Option.some.injEq] at hcurrent
    have hlong : cursor.available = cursor.boundary - cursor.offset := by
      simp [available, hcursor]
    refine ⟨⟨passed, rest, hcurrent ▸ hsegments, ?_⟩, ?_⟩
    · rw [← hcurrent, ← hboundary]
      omega
    · rw [← hcurrent]
      omega
  | waiting gone _ _ _ _ _ hboundary _ =>
    unfold available at havailable
    split at havailable <;> omega

theorem addSegment (hoffers : cursor.Offers region) (hfollows : cursor.Follows log)
    {segment : Segment} (hsegment : segment.offset = log.maxOffset) :
    (cursor.addSegment segment).Offers region := by
  obtain ⟨first, rest, hcons⟩ := List.exists_cons_of_ne_nil hoffers.segments_ne_nil
  refine ⟨?_, ?_, hoffers.offset, hoffers.positive, ?_⟩
  · rw [← hoffers.current]
    simp [Cursor.addSegment, hcons]
  · rw [hoffers.position]
    simp [Cursor.addSegment, hcons]
  · exact hoffers.length_le.trans (hfollows.available_le_addSegment hsegment)

theorem addBytes (hoffers : cursor.Offers region) (hfollows : cursor.Follows log) (length : Nat) :
    (cursor.addBytes length).Offers region :=
  ⟨hoffers.current, hoffers.position, hoffers.offset, hoffers.positive,
    hoffers.length_le.trans (hfollows.available_le_addBytes length)⟩

end Offers

namespace Trails

/-- Only the segments and the end of a log matter to its cursors. -/
theorem congr (htrails : cursor.Trails log) (hsegments : after.segments = log.segments)
    (hend : after.maxOffset = log.maxOffset) : cursor.Trails after := by
  obtain ⟨gone, live, hsplit, hlive, hgone⟩ := htrails.behind
  have hfirst : after.firstOffset = log.firstOffset := by
    unfold TopicLog.firstOffset
    rw [hsegments, hend]
  refine ⟨htrails.follows.congr hsegments hend, gone, live, hsplit, hsegments ▸ hlive, ?_⟩
  rw [hfirst]
  exact hgone

/-- A cursor that was just placed knows of segments of the log only. -/
theorem of_place {offset : Nat} (hplace : place log.segments log.maxOffset offset = .ok cursor) :
    cursor.Trails log ∧ cursor.offset = offset := by
  obtain ⟨hfollows, hoffset⟩ := follows_of_place hplace
  exact ⟨⟨hfollows, [], cursor.segments, rfl, segments_of_place hplace, by simp⟩, hoffset⟩

theorem addSegment (htrails : cursor.Trails log) {segment : Segment}
    (hsegment : segment.offset = log.maxOffset) :
    (cursor.addSegment segment).Trails (log.addSegment segment) := by
  obtain ⟨gone, live, hsplit, ⟨front, hfront⟩, hgone⟩ := htrails.behind
  have hfirst := (TopicLog.Widened.added segment hsegment).firstOffset_eq
  refine ⟨htrails.follows.addSegment hsegment, gone, live ++ [segment], ?_, ⟨front, ?_⟩, ?_⟩
  · simp [Cursor.addSegment, hsplit]
  · rw [← List.append_assoc, hfront]
    rfl
  · rw [hfirst]
    exact hgone

theorem addBytes (htrails : cursor.Trails log) (hsegments : log.segments ≠ []) (length : Nat) :
    (cursor.addBytes length).Trails (log.addBytes length) := by
  obtain ⟨gone, live, hsplit, hlive, hgone⟩ := htrails.behind
  refine ⟨htrails.follows.addBytes hsegments length, gone, live, hsplit, hlive, ?_⟩
  rw [TopicLog.firstOffset_addBytes hsegments length]
  exact hgone

/-- A cleanup up to the place of a cursor that leaves some segment does not disturb it. -/
theorem cleaned (htrails : cursor.Trails log) (hordered : log.Ordered) {gate : Nat}
    (hcleaned : log.Cleaned gate after) (hgate : gate ≤ cursor.offset)
    (hleft : after.segments = [] → log.segments = []) : cursor.Trails after := by
  refine ⟨htrails.follows.cleaned hordered hcleaned hgate, ?_⟩
  have hbehind := htrails.behind
  clear htrails
  induction hcleaned with
  | same => exact hbehind
  | last hsegments _ =>
    rw [hleft rfl] at hsegments
    cases hsegments
  | @oldest log after oldest next rest hsegments _ _ ih =>
    have hlt := (List.pairwise_cons.mp (hsegments ▸ hordered.ascending)).1 next List.mem_cons_self
    refine ih (hordered.drop_first hsegments) (fun hnil => ?_) ?_
    · rw [hleft hnil] at hsegments
      cases hsegments
    · obtain ⟨gone, live, hsplit, hlive, hgone⟩ := hbehind
      rw [TopicLog.firstOffset_of_cons hsegments] at hgone
      have hbefore : ∀ segment ∈ gone, segment.offset < next.offset :=
        fun segment hmem => (hgone segment hmem).trans hlt
      rw [hsegments, List.suffix_cons_iff] at hlive
      rcases hlive with rfl | hlive
      · refine ⟨gone ++ [oldest], next :: rest, by simp [hsplit], List.suffix_rfl, ?_⟩
        intro segment hmem
        rcases List.mem_append.mp hmem with hmem | hmem
        · exact hbefore segment hmem
        · rw [List.mem_singleton.mp hmem]
          exact hlt
      · exact ⟨gone, live, hsplit, hlive, hbefore⟩

/-- What a cursor knows of a log may shrink from the front. -/
theorem of_suffix (htrails : cursor.Trails log) (hmoved : moved.Follows log)
    (hsuffix : moved.segments <:+ cursor.segments) : moved.Trails log := by
  obtain ⟨gone, live, hsplit, hlive, hgone⟩ := htrails.behind
  obtain ⟨left, kept, hknown, hleft, hkept⟩ := exists_split_of_suffix (hsplit ▸ hsuffix)
  exact ⟨hmoved, left, kept, hknown, hkept.trans hlive, fun segment hmem =>
    hgone segment (hleft hmem)⟩

/-- A segment that starts before the log has another name than all segments of the log. -/
theorem discerns (htrails : cursor.Trails stored.log) (hlaid : stored.Laid parts) :
    cursor.Discerns stored.log := by
  obtain ⟨gone, live, hsplit, hlive, hgone⟩ := htrails.behind
  refine ⟨htrails.follows, gone, live, hsplit, hlive, fun segment hmem =>
    ⟨(hgone segment hmem).le, fun other hother hsame => ?_⟩⟩
  have hname := htrails.follows.named hlaid.ordered (hsplit ▸ List.mem_append_left live hmem)
  rw [hlaid.segments] at hother
  obtain ⟨part, hpart, rfl⟩ := List.mem_map.mp hother
  have hoffset : part.segment.offset = segment.offset := by
    have hnamed := hlaid.named part hpart
    rw [← hsame, hname] at hnamed
    exact (Except.ok.inj hnamed).symm
  have hbefore := hgone segment hmem
  have hfirst := (hlaid.chained.bounds hpart).1
  omega

/-- It can always be told whether there is more to read. -/
theorem hasMore (htrails : cursor.Trails stored.log) (hlaid : stored.Laid parts) (topic : String) :
    ∃ more moved, Cursor.hasMore topic stored.dir cursor = (.ok more, moved) ∧
      moved.Trails stored.log ∧ moved.offset = cursor.offset ∧ (more ↔ 0 < moved.available) ∧
      (0 < moved.available ↔ cursor.offset < stored.log.maxOffset) ∧
      (0 < cursor.available → moved = cursor) := by
  obtain ⟨more, moved, hmore, hmoved, hoffset, hsuffix, hrest⟩ :=
    (htrails.discerns hlaid).hasMore hlaid topic
  exact ⟨more, moved, hmore, htrails.of_suffix hmoved.follows hsuffix, hoffset, hrest⟩

/-- There is a next region unless the cursor is at the end of the log. -/
theorem nextRegion (htrails : cursor.Trails stored.log) (hlaid : stored.Laid parts) (topic : String)
    {limit : Nat} (hlimit : 0 < limit) :
    ∃ region? moved, Cursor.nextRegion topic stored.dir cursor limit = (.ok region?, moved) ∧
      moved.Trails stored.log ∧ moved.offset = cursor.offset ∧
      (region? = none ↔ cursor.offset = stored.log.maxOffset) ∧
      ∀ region, region? = some region → moved.Offers region ∧ region.length ≤ limit := by
  obtain ⟨region?, moved, hnext, hmoved, hoffset, hsuffix, hnone, hregion⟩ :=
    (htrails.discerns hlaid).nextRegion hlaid topic limit
  exact ⟨region?, moved, hnext, htrails.of_suffix hmoved.follows hsuffix, hoffset, hnone,
    hregion hlimit⟩

/-- Available bytes can be given up. -/
theorem consume (htrails : cursor.Trails stored.log) (hlaid : stored.Laid parts) {length : Nat}
    (hlength : length ≤ cursor.available) (topic : String) :
    ∃ moved, Cursor.consume topic stored.dir cursor length = (.ok (), moved) ∧
      moved.Trails stored.log ∧ moved.offset = cursor.offset + length := by
  have hbound := htrails.follows.available_le hlaid.ordered
  have hinside : cursor.offset + length ≤ stored.log.maxOffset := by omega
  obtain ⟨moved, hconsume, hmoved, hoffset, hsuffix⟩ :=
    (htrails.discerns hlaid).consume hlaid hinside topic
  exact ⟨moved, hconsume, htrails.of_suffix hmoved.follows hsuffix, hoffset⟩

end Trails

end Cursor

end ReplicatedLog
