import ReplicatedLog.Proofs.Log.Roster

namespace ReplicatedLog

/-- A call that may take a reader into another segment. -/
inductive ReaderCall
  | consume (length : Nat)
  | hasMore
  | nextRegion (limit : Nat)
  deriving DecidableEq, Repr

namespace Cursor

/-- Makes a call, and tells whether it succeeded. -/
def attempt (call : ReaderCall) (topic : String) (dir : Directory) (cursor : Cursor) :
    Except Fault Unit × Cursor :=
  match call with
  | .consume length => consume topic dir cursor length
  | .hasMore =>
    let (outcome, moved) := hasMore topic dir cursor
    (outcome.map fun _ => (), moved)
  | .nextRegion limit =>
    let (outcome, moved) := nextRegion topic dir cursor limit
    (outcome.map fun _ => (), moved)

/-- The bytes of the call reach behind the end of the log, or the cursor has none left and no
    segment to go to. -/
def Refuses (cursor : Cursor) : ReaderCall → Prop
  | .consume length => cursor.maxOffset < cursor.offset + length ∨
      cursor.segments.length ≤ 1 ∧ cursor.available = 0
  | _ => False

variable {topic : String} {dir : Directory} {cursor moved : Cursor} {length : Nat} {fault : Fault}
  {call : ReaderCall}

/-- The cursor had a segment to go to, and left its own. -/
def Leaves (cursor moved : Cursor) : Prop :=
  1 < cursor.segments.length ∧ moved.segments.length < cursor.segments.length

theorem hasMore_leaves (hfails : hasMore topic dir cursor = (.error fault, moved)) :
    cursor.Leaves moved := by
  fun_induction hasMore topic dir cursor with
  | case1 => cases hfails
  | case2 => cases hfails
  | case3 cursor hdone hlong other left hnext =>
    obtain ⟨-, rfl⟩ := Prod.mk.inj hfails
    exact ⟨not_le.mp hlong, length_nextSegment_lt hnext (not_le.mp hlong)⟩
  | case4 cursor hdone hlong left hnext hlt ih =>
    exact ⟨not_le.mp hlong, (ih hfails).2.trans hlt⟩

theorem nextRegion_leaves {limit : Nat}
    (hfails : nextRegion topic dir cursor limit = (.error fault, moved)) :
    cursor.Leaves moved := by
  unfold nextRegion at hfails
  split at hfails
  next hmore =>
    cases hfails
    exact hasMore_leaves hmore
  · cases hfails
  · cases hfails

theorem length_walk_le (topic : String) (dir : Directory) (cursor : Cursor) (length : Nat) :
    (walk topic dir cursor length).2.segments.length ≤ cursor.segments.length := by
  fun_induction walk topic dir cursor length with
  | case1 => exact le_rfl
  | case2 => exact le_rfl
  | case3 cursor length step skipped left hleft hlong fault moved hnext =>
    exact (length_nextSegment_lt hnext (not_le.mp hlong)).le
  | case4 cursor length step skipped left hleft hlong moved hnext hlt ih => exact ih.trans hlt.le

/-- A walk fails where there is no segment to go to, at the end of the current one, or behind a
    segment that it left. -/
theorem walk_leaves (hfails : walk topic dir cursor length = (.error fault, moved)) :
    cursor.Leaves moved ∨ cursor.segments.length ≤ 1 ∧ moved = cursor.skip cursor.available := by
  fun_induction walk topic dir cursor length with
  | case1 => cases hfails
  | case2 cursor length step skipped left hleft hshort =>
    obtain ⟨-, rfl⟩ := Prod.mk.inj hfails
    have hstep : step = cursor.available := by omega
    exact Or.inr ⟨hshort, by rw [← hstep]⟩
  | case3 cursor length step skipped left hleft hlong other next hnext =>
    obtain ⟨-, rfl⟩ := Prod.mk.inj hfails
    have hlt : next.segments.length < skipped.segments.length :=
      length_nextSegment_lt hnext (not_le.mp hlong)
    exact Or.inl ⟨not_le.mp hlong, hlt⟩
  | case4 cursor length step skipped left hleft hlong next hnext hlt ih =>
    have hle := length_walk_le topic dir next left
    rw [hfails] at hle
    exact Or.inl ⟨not_le.mp hlong, hle.trans_lt hlt⟩

theorem consume_leaves (hinside : cursor.offset + length ≤ cursor.maxOffset)
    (hfails : consume topic dir cursor length = (.error fault, moved)) :
    cursor.Leaves moved ∨ cursor.segments.length ≤ 1 ∧ moved = cursor.skip cursor.available := by
  unfold consume at hfails
  rw [if_neg (not_lt.mpr hinside)] at hfails
  have hle := length_walk_le topic dir cursor length
  cases hwalk : walk topic dir cursor length with
  | mk outcome walked =>
    rw [hwalk] at hfails hle
    cases outcome with
    | error other =>
      cases hfails
      exact walk_leaves hwalk
    | ok =>
      dsimp only at hfails hle
      split at hfails
      next hdone =>
        have hlt := length_nextSegment_lt hfails hdone.2
        exact Or.inl ⟨hdone.2.trans_le hle, hlt.trans_le hle⟩
      · cases hfails

theorem skip_available_eq_iff : cursor.skip cursor.available = cursor ↔ cursor.available = 0 := by
  constructor
  · intro hsame
    have hoffset := congrArg Cursor.offset hsame
    simp only [skip] at hoffset
    omega
  · intro hnone
    simp [skip, hnone]

/-- Where a cursor has left its segment, the call was not refused. -/
theorem Leaves.eq_iff_refuses (hleaves : cursor.Leaves moved)
    (hinside : ∀ length, call = .consume length → cursor.offset + length ≤ cursor.maxOffset) :
    moved = cursor ↔ cursor.Refuses call := by
  refine iff_of_false ?_ ?_
  · rintro rfl
    exact Nat.lt_irrefl _ hleaves.2
  · intro hrefuses
    cases call with
    | consume length =>
      obtain hbeyond | ⟨hshort, -⟩ := hrefuses
      · exact absurd (hinside length rfl) (not_le.mpr hbeyond)
      · exact absurd hleaves.1 (not_lt.mpr hshort)
    | hasMore => exact hrefuses
    | nextRegion limit => exact hrefuses

/-- A call that fails leaves the cursor alone exactly if it was refused. -/
theorem attempt_eq_iff_refuses (hfails : attempt call topic dir cursor = (.error fault, moved)) :
    moved = cursor ↔ cursor.Refuses call := by
  cases call with
  | consume length =>
    by_cases hbeyond : cursor.maxOffset < cursor.offset + length
    · simp only [attempt, consume, if_pos hbeyond, Prod.mk.injEq] at hfails
      exact iff_of_true hfails.2.symm (Or.inl hbeyond)
    · have hinside := not_lt.mp hbeyond
      obtain hleaves | ⟨hshort, rfl⟩ := consume_leaves hinside hfails
      · exact hleaves.eq_iff_refuses fun other hother => by cases hother; exact hinside
      · rw [skip_available_eq_iff]
        exact ⟨fun hnone => Or.inr ⟨hshort, hnone⟩, fun hrefuses =>
          (hrefuses.resolve_left hbeyond).2⟩
  | hasMore =>
    cases hmore : hasMore topic dir cursor with
    | mk outcome left =>
      cases outcome with
      | ok more => simp [attempt, hmore, Except.map] at hfails
      | error other =>
        simp only [attempt, hmore, Prod.mk.injEq] at hfails
        obtain ⟨-, rfl⟩ := hfails
        exact (hasMore_leaves hmore).eq_iff_refuses fun _ hcall => by cases hcall
  | nextRegion limit =>
    cases hregion : nextRegion topic dir cursor limit with
    | mk outcome left =>
      cases outcome with
      | ok region => simp [attempt, hregion, Except.map] at hfails
      | error other =>
        simp only [attempt, hregion, Prod.mk.injEq] at hfails
        obtain ⟨-, rfl⟩ := hfails
        exact (nextRegion_leaves hregion).eq_iff_refuses fun _ hcall => by cases hcall

end Cursor

namespace StoredLog

variable {opened stored after : StoredLog} {topic : String} {dir : Directory} {reader : Reader}
  {call : ReaderCall} {fault : Fault} {id : Nat}

/-- A call of a reader that fails changes nothing in the log and its readers exactly if it was
    refused. Then it fails in the same way when it is made again. -/
theorem failed_call_unchanged_iff (hopen : ofDirectory topic dir = .ok opened)
    (hreaches : Reaches opened stored) (hreader : stored.log.reader? id = some reader)
    (hfails : stored.onReader id (Cursor.attempt call) = (.error fault, after)) :
    (after = stored ↔ reader.cursor.Refuses call) ∧
      (reader.cursor.Refuses call →
        after.onReader id (Cursor.attempt call) = (.error fault, after)) := by
  have hidentified := hreaches.identified (identified_ofDirectory hopen)
  rw [onReader_of_reader? hreader] at hfails
  rcases hcall : Cursor.attempt call stored.log.topic stored.dir reader.cursor with ⟨outcome, moved⟩
  rw [hcall] at hfails
  obtain ⟨rfl, rfl⟩ := Prod.mk.inj hfails
  have hcursor := Cursor.attempt_eq_iff_refuses hcall
  have hunchanged : { stored with log := stored.log.setCursor id moved } = stored ↔
      reader.cursor.Refuses call := by
    rw [← hcursor]
    constructor
    · intro hsame
      have hlog := congrArg (fun stored : StoredLog => stored.log.reader? id) hsame
      simp only [TopicLog.reader?_setCursor hreader, hreader, Option.some.injEq] at hlog
      exact congrArg Reader.cursor hlog
    · rintro rfl
      rw [hidentified.setCursor_self hreader]
  refine ⟨hunchanged, fun hrefuses => ?_⟩
  rw [hunchanged.mpr hrefuses, onReader_of_reader? hreader, hcall]
  exact congrArg (Prod.mk _) (hunchanged.mpr hrefuses)

/-- Two segments, of which the first one ends a byte before the second one. -/
def gapped : Directory where
  place := .folder [("00000000000000000000.20200101000000", .file ⟨0, [1, 2], ⟨0, 0⟩⟩),
    ("00000000000000000003.20200102000000", .file ⟨1, [4], ⟨0, 0⟩⟩)]
  nextId := 2

/-- The log of `gapped` as it is opened. -/
def gappedLog : StoredLog where
  log := {
    topic := "t"
    segments := [⟨"00000000000000000000.20200101000000", 0⟩,
      ⟨"00000000000000000003.20200102000000", 3⟩]
    maxOffset := 4 }
  dir := gapped

/-- A call for more than the log has is refused, with the gap still ahead. -/
theorem refused_consume_unchanged :
    let stored := gappedLog.perform ⟨0, 0⟩ (.addReader "r" 0)
    ∃ after, stored.onReader 0 (Cursor.attempt (.consume 5)) = (.error (.invalidOffset 5 4), after) ∧
      after = stored ∧ after.onReader 0 (Cursor.attempt (.consume 5)) =
        (.error (.invalidOffset 5 4), after) := by
  intro stored
  have hopen : ofDirectory "t" gapped = .ok gappedLog := by decide +kernel
  have hreaches : Reaches gappedLog stored :=
    .step .refl ⟨0, 0⟩ (.addReader "r" 0) (by decide) trivial
  have hreader : stored.log.reader? 0 = some ⟨0, "r", ⟨gappedLog.log.segments, 0, 0, 3, 4⟩⟩ := by
    decide +kernel
  obtain ⟨after, hfails⟩ : ∃ after, stored.onReader 0 (Cursor.attempt (.consume 5)) =
      (.error (.invalidOffset 5 4), after) := ⟨_, Prod.ext (by decide +kernel) rfl⟩
  have hrefuses : Cursor.Refuses ⟨gappedLog.log.segments, 0, 0, 3, 4⟩ (.consume 5) :=
    Or.inl (by decide)
  obtain ⟨hunchanged, hagain⟩ := failed_call_unchanged_iff hopen hreaches hreader hfails
  exact ⟨after, hfails, hunchanged.mpr hrefuses, hagain hrefuses⟩

/-- The call that meets the gap has moved the reader past it, and with it the gate of the log. The
    reader then finds nothing more, although a byte is left. -/
theorem failed_consume_moves :
    let stored := gappedLog.perform ⟨0, 0⟩ (.addReader "r" 0)
    ofDirectory "t" gapped = .ok gappedLog ∧ stored.log.gate = 0 ∧ stored.log.maxOffset = 4 ∧
    ∃ fault after, stored.onReader 0 (Cursor.attempt (.consume 3)) = (.error fault, after) ∧
      after ≠ stored ∧ after.log.gate = 3 ∧
      (after.onReader 0 fun topic dir cursor => cursor.hasMore topic dir).1 = .ok false := by
  intro stored
  have hopen : ofDirectory "t" gapped = .ok gappedLog := by decide +kernel
  have hgate : stored.log.gate = 0 := by decide +kernel
  have hend : stored.log.maxOffset = 4 := by decide +kernel
  let after := (stored.onReader 0 (Cursor.attempt (.consume 3))).2
  have hafter : after.log.gate = 3 := by decide +kernel
  refine ⟨hopen, hgate, hend, .discontinuity (.size "t" "00000000000000000000.20200101000000" 2
    "00000000000000000003.20200102000000" 3), after, Prod.ext (by decide +kernel) rfl, ?_, hafter,
    by decide +kernel⟩
  intro hsame
  rw [hsame, hgate] at hafter
  cases hafter

end StoredLog

end ReplicatedLog
