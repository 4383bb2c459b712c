import ReplicatedLog.Proofs.Log.Coverage

namespace ReplicatedLog

/-- A call by which a reader goes on. -/
inductive CursorCall
  | consume (length : Nat)
  | hasMore
  deriving DecidableEq, Repr

/-- How many bytes a call gives up. -/
def CursorCall.length : CursorCall → Nat
  | .consume length => length
  | .hasMore => 0

namespace Cursor

/-- Makes a call. -/
def call (topic : String) (dir : Directory) (cursor : Cursor) :
    CursorCall → Except Fault Unit × Cursor
  | .consume length => consume topic dir cursor length
  | .hasMore =>
    let (outcome, moved) := hasMore topic dir cursor
    (outcome.map fun _ => (), moved)

/-- Makes one call after the other, up to the first that fails. -/
def callAll (topic : String) (dir : Directory) :
    List CursorCall → Cursor → Except Fault Unit × Cursor
  | [], cursor => (.ok (), cursor)
  | call :: calls, cursor =>
    match cursor.call topic dir call with
    | (.error fault, moved) => (.error fault, moved)
    | (.ok (), moved) => callAll topic dir calls moved

variable {stored : StoredLog} {cursor moved : Cursor} {length : Nat}

/-- A cursor inside a log as it was found: its segments are in order, and it stands before the end of
    the current one. -/
structure Rides (stored : StoredLog) (cursor : Cursor) : Prop where
  inOrder : cursor.segments.IsChain stored.InOrder
  boundary : cursor.boundary = segmentEnd cursor.segments cursor.maxOffset
  maxOffset : cursor.maxOffset = stored.log.maxOffset
  offset : cursor.offset ≤ cursor.boundary
  inside : cursor.offset ≤ stored.log.maxOffset
  ended : cursor.segments = [] → cursor.offset = stored.log.maxOffset

/-- A move over `length` bytes went over segments that line up, or it was stopped by the first one that
    does not reach exactly up to the next one. -/
inductive Advances (stored : StoredLog) (cursor : Cursor) (length : Nat) :
    Except Fault Unit × Cursor → Prop
  | ok {moved : Cursor} (hcrosses : Crosses stored.dir cursor.segments moved.segments)
      (hrides : moved.Rides stored) (hoffset : moved.offset = cursor.offset + length) :
      Advances stored cursor length (.ok (), moved)
  | gap {segment next : Segment} {rest : List Segment} {size : Nat} {moved : Cursor}
      (hcrosses : Crosses stored.dir cursor.segments (segment :: next :: rest))
      (hsize : stored.dir.size segment.name = .ok size) (hgap : segment.offset + size ≠ next.offset) :
      Advances stored cursor length (.error (.discontinuity
        (.size stored.log.topic segment.name size next.name (next.offset - segment.offset))), moved)

/-- A call fails as `segment` does not reach exactly up to `next`. The cursor was not behind it yet. -/
structure Stops (stored : StoredLog) (cursor : Cursor) (call : CursorCall) (segment next : Segment)
    (left : List Segment) : Prop where
  ahead : segment :: next :: left <:+ cursor.segments
  fails : ∃ size, stored.dir.size segment.name = .ok size ∧ segment.offset + size ≠ next.offset ∧
    (cursor.call stored.log.topic stored.dir call).1 = .error (.discontinuity
      (.size stored.log.topic segment.name size next.name (next.offset - segment.offset)))

/-- A move may be made in two parts. -/
theorem Advances.after {result : Except Fault Unit × Cursor} {step : Nat}
    (hcrosses : Crosses stored.dir cursor.segments moved.segments)
    (hoffset : moved.offset = cursor.offset + step) (hrest : Advances stored moved length result) :
    Advances stored cursor (step + length) result := by
  cases hrest with
  | ok hlater hrides hend =>
    refine .ok (hcrosses.trans hlater) hrides ?_
    omega
  | gap hlater hsize hgap => exact .gap (hcrosses.trans hlater) hsize hgap

namespace Rides

/-- A cursor that was placed in a log as it was found. -/
theorem of_place {parts : List Part} {start : Nat} (hscanned : stored.Scanned parts)
    (hplace : place stored.log.segments stored.log.maxOffset start = .ok cursor) :
    cursor.Rides stored := by
  have hsuffix := segments_of_place hplace
  obtain ⟨-, -, -, hnext, -⟩ := segmentsFrom_spec start stored.log.segments
  obtain ⟨hend, hfirst, rfl⟩ := eq_of_place hplace
  refine ⟨hscanned.inOrder.suffix hsuffix, rfl, rfl, ?_, hend, fun hnone => ?_⟩
  · dsimp only
    rcases hfrom : segmentsFrom start stored.log.segments with _ | ⟨current, _ | ⟨next, rest⟩⟩
    · exact hend
    · exact hend
    · exact (hnext current next rest hfrom).le
  · dsimp only at hnone ⊢
    rw [hnone] at hfirst
    exact le_antisymm hend hfirst

/-- Inside a segment a cursor just moves on. -/
theorem skip (hrides : cursor.Rides stored) (hlength : length ≤ cursor.available)
    (hend : cursor.offset + length ≤ stored.log.maxOffset) : (cursor.skip length).Rides stored := by
  have hoffset := hrides.offset
  refine ⟨hrides.inOrder, hrides.boundary, hrides.maxOffset, ?_, hend, fun hnone => ?_⟩
  · unfold available at hlength
    simp only [Cursor.skip]
    split at hlength <;> omega
  · have hended := hrides.ended hnone
    simp only [available, show cursor.segments = [] from hnone, List.isEmpty_nil, if_true] at hlength
    simp only [Cursor.skip]
    omega

/-- In its last segment a cursor has all bytes up to the end of the log before it. -/
theorem available_of_short (hrides : cursor.Rides stored) (hshort : cursor.segments.length ≤ 1) :
    cursor.available = stored.log.maxOffset - cursor.offset := by
  have hboundary := hrides.boundary
  have hend := hrides.maxOffset
  rcases hsegments : cursor.segments with _ | ⟨current, _ | ⟨next, rest⟩⟩
  · have hended := hrides.ended hsegments
    simp [available, hsegments, hended]
  · rw [hsegments] at hboundary
    simp [available, hsegments, hboundary, segmentEnd, hend]
  · simp [hsegments] at hshort

/-- An exhausted segment ends where the cursor stands, which is where the next one starts. -/
theorem offset_of_exhausted (hrides : cursor.Rides stored) (hdone : cursor.available = 0)
    {current next : Segment} {rest : List Segment}
    (hsegments : cursor.segments = current :: next :: rest) : next.offset = cursor.offset := by
  have hboundary : cursor.boundary = next.offset := by rw [hrides.boundary, hsegments]; rfl
  have hoffset := hrides.offset
  simp only [available, hsegments, List.isEmpty_cons, Bool.false_eq_true, if_false] at hdone
  omega

/-- It is left if its file reaches up to the next one. -/
theorem nextSegment_of_adjacent (hrides : cursor.Rides stored) (hdone : cursor.available = 0)
    {current next : Segment} {rest : List Segment}
    (hsegments : cursor.segments = current :: next :: rest)
    (hadjacent : stored.Adjacent current next) :
    ∃ moved, Cursor.nextSegment stored.log.topic stored.dir cursor = (.ok (), moved) ∧
      moved.Rides stored ∧ moved.segments = next :: rest ∧ moved.offset = cursor.offset := by
  have hplace := hrides.offset_of_exhausted hdone hsegments
  have hchain := hrides.inOrder
  rw [hsegments] at hchain
  obtain ⟨-, hrest⟩ := List.isChain_cons_cons.mp hchain
  obtain ⟨size, hsize, hreaches⟩ := hadjacent
  have hlong : size = next.offset - current.offset := by omega
  refine ⟨_, nextSegment_eq hsegments hplace (Directory.size?_of_size hsize) hlong,
    ⟨hrest, rfl, hrides.maxOffset, ?_, hrides.inside, by simp⟩, rfl, rfl⟩
  dsimp only
  rw [hrides.maxOffset]
  cases rest with
  | nil => exact hrides.inside
  | cons third others => exact hplace ▸ (List.isChain_cons_cons.mp hrest).1.le

/-- An exhausted segment is left exactly if its file reaches up to the next one. -/
theorem nextSegment (hrides : cursor.Rides stored) (hdone : cursor.available = 0)
    (hmore : 1 < cursor.segments.length) :
    Advances stored cursor 0 (nextSegment stored.log.topic stored.dir cursor) := by
  obtain ⟨current, next, rest, hsegments⟩ := exists_next_of_length hmore
  have hplace := hrides.offset_of_exhausted hdone hsegments
  have hchain := hrides.inOrder
  rw [hsegments] at hchain
  obtain ⟨⟨⟨size, hsize⟩, hle⟩, -⟩ := List.isChain_cons_cons.mp hchain
  have hfile := Directory.size?_of_size hsize
  by_cases hreaches : current.offset + size = next.offset
  · obtain ⟨moved, hnext, hmoved, hleft, hoffset⟩ :=
      hrides.nextSegment_of_adjacent hdone hsegments ⟨size, hsize, hreaches⟩
    rw [hnext]
    refine .ok ?_ hmoved hoffset
    rw [hsegments, hleft]
    exact .cross ⟨some size, hfile, by rw [Option.getD_some]; omega⟩ (.stay _)
  · have hlong : size ≠ cursor.offset - current.offset := by omega
    have hgap : Cursor.nextSegment stored.log.topic stored.dir cursor =
        (.error (.discontinuity (.size stored.log.topic current.name size next.name
          (next.offset - current.offset))), { cursor with segments := next :: rest }) := by
      simp [Cursor.nextSegment, hsegments, hplace, hfile, hlong]
    rw [hgap]
    have hstays : Crosses stored.dir cursor.segments (current :: next :: rest) := by
      rw [hsegments]
      exact .stay _
    exact .gap hstays hsize hreaches

/-- A cursor that is to go beyond its segment goes to the end of it first. -/
theorem nextSegment_skip (hrides : cursor.Rides stored)
    (hend : cursor.offset + length ≤ stored.log.maxOffset)
    (hleft : length - min cursor.available length ≠ 0) (hmore : 1 < cursor.segments.length) :
    Advances stored (cursor.skip (min cursor.available length)) 0
      (Cursor.nextSegment stored.log.topic stored.dir
        (cursor.skip (min cursor.available length))) := by
  have hskipped := hrides.skip (Nat.min_le_left cursor.available length) (by omega)
  refine hskipped.nextSegment ?_ hmore
  rw [available_skip]
  omega

/-- A cursor can be moved as far as the log goes, unless a segment on the way does not line up. -/
theorem walk (hrides : cursor.Rides stored)
    (hend : cursor.offset + length ≤ stored.log.maxOffset) :
    Advances stored cursor length (walk stored.log.topic stored.dir cursor length) := by
  fun_induction Cursor.walk stored.log.topic stored.dir cursor length with
  | case1 cursor length step skipped left hdone =>
    have hskipped := hrides.skip (Nat.min_le_left cursor.available length) (by omega)
    refine .ok (.stay _) hskipped ?_
    simp only [skipped, Cursor.skip]
    omega
  | case2 cursor length step skipped left hleft hshort =>
    have hinside := hrides.available_of_short hshort
    omega
  | case3 cursor length step skipped left hleft hlong fault moved hnext =>
    have hstep := hrides.nextSegment_skip hend hleft (not_le.mp hlong)
    rw [hnext] at hstep
    cases hstep with
    | gap hcrosses hsize hgap => exact .gap hcrosses hsize hgap
  | case4 cursor length step skipped left hleft hlong moved hnext _ ih =>
    have hstep := hrides.nextSegment_skip hend hleft (not_le.mp hlong)
    rw [hnext] at hstep
    cases hstep with
    | ok hcrosses hmoved hoffset =>
      have hplace : moved.offset = cursor.offset + step := hoffset
      have hlength : length = step + left := by omega
      rw [hlength]
      exact (ih hmoved (by omega)).after hcrosses hplace

/-- So it can when the next segment is entered as soon as the current one is exhausted. -/
theorem consume (hrides : cursor.Rides stored)
    (hend : cursor.offset + length ≤ stored.log.maxOffset) :
    Advances stored cursor length (consume stored.log.topic stored.dir cursor length) := by
  have hinside : ¬ cursor.maxOffset < cursor.offset + length := by
    rw [hrides.maxOffset]
    omega
  have hwalk := hrides.walk hend
  unfold Cursor.consume
  simp only [if_neg hinside]
  rcases hmoved : Cursor.walk stored.log.topic stored.dir cursor length with ⟨fault | _, moved⟩
  · rw [hmoved] at hwalk
    exact hwalk
  · rw [hmoved] at hwalk
    dsimp only
    by_cases hnext : moved.available = 0 ∧ 1 < moved.segments.length
    · rw [if_pos hnext]
      cases hwalk with
      | ok hcrosses hrides hoffset =>
        exact (hrides.nextSegment hnext.1 hnext.2).after hcrosses hoffset
    · rw [if_neg hnext]
      exact hwalk

/-- Looking for more leaves a cursor in a segment with bytes left, or in the last one. -/
theorem hasMore (hrides : cursor.Rides stored) :
    Advances stored cursor 0 (cursor.call stored.log.topic stored.dir .hasMore) ∧
      ∀ moved, cursor.call stored.log.topic stored.dir .hasMore = (.ok (), moved) →
        0 < moved.available ∨ moved.segments.length ≤ 1 := by
  unfold call
  fun_induction Cursor.hasMore stored.log.topic stored.dir cursor with
  | case1 cursor havailable =>
    refine ⟨.ok (.stay _) hrides rfl, fun moved hmoved => ?_⟩
    obtain rfl := (Prod.mk.inj hmoved).2
    exact Or.inl havailable
  | case2 cursor hdone hshort =>
    refine ⟨.ok (.stay _) hrides rfl, fun moved hmoved => ?_⟩
    obtain rfl := (Prod.mk.inj hmoved).2
    exact Or.inr hshort
  | case3 cursor hdone hlong fault moved hnext =>
    have hstep := hrides.nextSegment (by omega) (by omega)
    rw [hnext] at hstep
    refine ⟨?_, fun moved hmoved => by cases hmoved⟩
    cases hstep with
    | gap hcrosses hsize hgap => exact .gap hcrosses hsize hgap
  | case4 cursor hdone hlong moved hnext _ ih =>
    have hstep := hrides.nextSegment (by omega) (by omega)
    rw [hnext] at hstep
    cases hstep with
    | ok hcrosses hmoved hoffset =>
      obtain ⟨hrest, hleft⟩ := ih hmoved
      exact ⟨hrest.after hcrosses hoffset, hleft⟩

theorem call (hrides : cursor.Rides stored) {call : CursorCall}
    (hend : cursor.offset + call.length ≤ stored.log.maxOffset) :
    Advances stored cursor call.length (cursor.call stored.log.topic stored.dir call) := by
  cases call with
  | consume length => exact hrides.consume hend
  | hasMore => exact hrides.hasMore.1

/-- Calls that go no further than the log bring a cursor on, one after the other, or one of them meets a
    segment that does not line up. -/
theorem callAll (hrides : cursor.Rides stored) {calls : List CursorCall}
    (hend : cursor.offset + (calls.map (·.length)).sum ≤ stored.log.maxOffset) :
    (∃ moved, cursor.callAll stored.log.topic stored.dir calls = (.ok (), moved) ∧
      Crosses stored.dir cursor.segments moved.segments ∧ moved.Rides stored ∧
      moved.offset = cursor.offset + (calls.map (·.length)).sum) ∨
    ∃ segment next left, Crosses stored.dir cursor.segments (segment :: next :: left) ∧
      ∃ done call rest before, calls = done ++ call :: rest ∧
        cursor.callAll stored.log.topic stored.dir done = (.ok (), before) ∧
        before.Stops stored call segment next left := by
  induction calls generalizing cursor with
  | nil => exact Or.inl ⟨cursor, rfl, .stay _, hrides, rfl⟩
  | cons call calls ih =>
    rw [List.map_cons, List.sum_cons] at hend ⊢
    have hinside : cursor.offset + call.length ≤ stored.log.maxOffset := by omega
    have hstep := hrides.call hinside
    rcases hcall : cursor.call stored.log.topic stored.dir call with ⟨outcome, next⟩
    rw [hcall] at hstep
    cases hstep with
    | ok hcrosses hnext hoffset =>
      rcases ih hnext (by omega) with ⟨moved, hmoved, hlater, hlast, hplace⟩ |
        ⟨segment, following, left, hlater, done, failing, rest, before, rfl, hdone, hstops⟩
      · refine Or.inl ⟨moved, ?_, hcrosses.trans hlater, hlast, by omega⟩
        simp only [Cursor.callAll, hcall, hmoved]
      · refine Or.inr ⟨segment, following, left, hcrosses.trans hlater, call :: done, failing, rest,
          before, rfl, ?_, hstops⟩
        simp only [Cursor.callAll, hcall, hdone]
    | @gap segment following left size _ hcrosses hsize hgap =>
      refine Or.inr ⟨segment, following, left, hcrosses, [], call, calls, cursor, rfl, rfl,
        hcrosses.suffix, size, hsize, hgap, ?_⟩
      rw [hcall]

end Rides

end Cursor

namespace StoredLog

variable {stored : StoredLog} {topic : String} {dir : Directory}

end StoredLog

end ReplicatedLog
