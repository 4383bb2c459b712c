import Mathlib.Data.List.TakeDrop
import Mathlib.Data.String.Basic
import Mathlib.Tactic.IntervalCases
import Mathlib.Tactic.Linarith
import Mathlib.Tactic.Ring
import ReplicatedLog.Disk.Directory
import ReplicatedLog.Segment.Basic

namespace ReplicatedLog

namespace Decimal

theorem toNat_digit (value : Nat) : (digit value).toNat = 48 + value % 10 := by
  have hlt : value % 10 < 10 := Nat.mod_lt _ (by decide)
  unfold digit
  generalize value % 10 = d at hlt
  interval_cases d <;> rfl

theorem isDigit_digit (value : Nat) : (digit value).isDigit = true := by
  have hlt : value % 10 < 10 := Nat.mod_lt _ (by decide)
  unfold digit
  generalize value % 10 = d at hlt
  interval_cases d <;> rfl

@[simp] theorem length_padded (width value : Nat) : (padded width value).length = width := by
  induction width with
  | zero => rfl
  | succ width ih => simp [padded, ih]

theorem all_isDigit_padded (width value : Nat) :
    (padded width value).all Char.isDigit = true := by
  induction width with
  | zero => rfl
  | succ width ih => rw [padded, List.all_cons, isDigit_digit, ih, Bool.and_self]

/-- A digit is no point, so that the first point of a name ends its offset. -/
theorem ne_point_of_isDigit {c : Char} (hdigit : c.isDigit = true) : (c != '.') = true := by
  rw [bne_iff_ne]
  rintro rfl
  simp at hdigit

/-- Reading digits behind a number appends them to it. -/
theorem parseFrom_padded (width start value : Nat)
    (hfits : start * 10 ^ width + value % 10 ^ width ≤ maxValue) :
    parseFrom start (padded width value) = .ok (start * 10 ^ width + value % 10 ^ width) := by
  induction width generalizing start with
  | zero => simp [padded, parseFrom, Nat.mod_one]
  | succ width ih =>
    have hdigit : (digit (value / 10 ^ width)).toNat - 48 = value / 10 ^ width % 10 := by
      rw [toNat_digit]
      omega
    have hsplit : start * 10 ^ (width + 1) + value % 10 ^ (width + 1) =
        (start * 10 + value / 10 ^ width % 10) * 10 ^ width + value % 10 ^ width := by
      rw [Nat.mod_pow_succ]
      ring
    rw [hsplit] at hfits ⊢
    have hnext : start * 10 + value / 10 ^ width % 10 ≤ maxValue := by
      have hpos : 0 < 10 ^ width := by positivity
      have := Nat.le_mul_of_pos_right (start * 10 + value / 10 ^ width % 10) hpos
      omega
    simp only [padded, parseFrom, isDigit_digit, Bool.not_true, Bool.false_eq_true, if_false,
      Nat.pow_eq, hdigit, if_neg (Nat.not_lt.mpr hnext)]
    exact ih _ hfits

/-- A number read from digits keeps what was read before them as its leading digits. -/
theorem parseFrom_bounds {start result : Nat} {digits : List Char}
    (hread : parseFrom start digits = .ok result) :
    start * 10 ^ digits.length ≤ result ∧ result < (start + 1) * 10 ^ digits.length := by
  induction digits generalizing start with
  | nil =>
    obtain rfl : start = result := by simpa [parseFrom] using hread
    simp
  | cons c rest ih =>
    simp only [parseFrom] at hread
    split at hread
    · simp at hread
    next hdigit =>
      split at hread
      · simp at hread
      · obtain ⟨hlow, hhigh⟩ := ih hread
        have hbound : c.toNat - 48 < 10 := by
          have := Char.isDigit_iff_toNat.mp (by simpa using hdigit)
          have : '9'.toNat = 57 := rfl
          omega
        have hpow : 10 ^ (rest.length + 1) = 10 * 10 ^ rest.length := by ring
        simp only [List.length_cons, hpow]
        constructor
        · nlinarith [Nat.zero_le ((c.toNat - 48) * 10 ^ rest.length)]
        · have : (start * 10 + (c.toNat - 48) + 1) * 10 ^ rest.length
              ≤ (start * 10 + 10) * 10 ^ rest.length := Nat.mul_le_mul_right _ (by omega)
          nlinarith

/-- Digits in equal number sort as the numbers that they make. -/
theorem append_lt_append_of_parseFrom {start low high : Nat} {first second : List Char}
    (hfirst : parseFrom start first = .ok low) (hsecond : parseFrom start second = .ok high)
    (hlength : first.length = second.length) (hlt : low < high) (rest others : List Char) :
    first ++ rest < second ++ others := by
  induction first generalizing start second with
  | nil =>
    obtain rfl : second = [] := List.eq_nil_of_length_eq_zero hlength.symm
    simp only [parseFrom, Except.ok.injEq] at hfirst hsecond
    omega
  | cons c tail ih =>
    cases second with
    | nil => simp at hlength
    | cons d last =>
      simp only [List.length_cons, Nat.add_right_cancel_iff] at hlength
      rw [List.cons_append, List.cons_append, List.cons_lt_cons_iff]
      simp only [parseFrom] at hfirst hsecond
      split at hfirst
      · simp at hfirst
      next hc =>
      split at hsecond
      · simp at hsecond
      next hd =>
      split at hfirst
      · simp at hfirst
      split at hsecond
      · simp at hsecond
      have hcLow := (Char.isDigit_iff_toNat.mp (by simpa using hc)).1
      have hdLow := (Char.isDigit_iff_toNat.mp (by simpa using hd)).1
      have hzero : '0'.toNat = 48 := rfl
      rcases Nat.lt_trichotomy c.toNat d.toNat with hless | hsame | hmore
      · exact Or.inl hless
      · obtain rfl : c = d := Char.toNat_inj.mp hsame
        exact Or.inr ⟨rfl, ih hfirst hsecond hlength⟩
      · have hlow := (parseFrom_bounds hfirst).1
        have hhigh := (parseFrom_bounds hsecond).2
        rw [← hlength] at hhigh
        have := Nat.mul_le_mul_right (10 ^ tail.length)
          (show start * 10 + (d.toNat - 48) + 1 ≤ start * 10 + (c.toNat - 48) by omega)
        omega

end Decimal

/-- The years that four digits tell. -/
def Instant.InCalendar (instant : Instant) : Prop :=
  0 ≤ instant.civil.1.year ∧ instant.civil.1.year ≤ 9999

instance (instant : Instant) : Decidable instant.InCalendar :=
  by unfold Instant.InCalendar; infer_instance

namespace SegmentName

/-- The two fields of a name that is well formed. -/
theorem split_eq_ok {digits time : List Char} (hdigits : digits.length = 20)
    (hall : digits.all Char.isDigit = true) (htime : time.length = 14)
    (hallTime : time.all Char.isDigit = true) :
    split (digits ++ '.' :: time) = .ok (digits, time) := by
  have hnone : ∀ c ∈ digits, (c != '.') = true := fun c hc =>
    Decimal.ne_point_of_isDigit (List.all_eq_true.mp hall c hc)
  have hspan : (digits ++ '.' :: time).span (· != '.') = (digits, '.' :: time) := by
    rw [List.span_eq_takeWhile_dropWhile, List.takeWhile_append_of_pos hnone,
      List.dropWhile_append_of_pos hnone]
    simp
  unfold split
  rw [hspan]
  simp only [hdigits, hall, htime, hallTime, and_self, not_true_eq_false, if_false]

theorem exists_of_split_eq_ok {name digits time : List Char}
    (hsplit : split name = .ok (digits, time)) :
    name = digits ++ '.' :: time ∧ digits.length = 20 ∧ digits.all Char.isDigit = true ∧
      time.length = 14 ∧ time.all Char.isDigit = true := by
  unfold split at hsplit
  rw [List.span_eq_takeWhile_dropWhile] at hsplit
  split at hsplit
  · simp at hsplit
  next offset head rest hspan =>
    obtain ⟨hoffset, hrest⟩ := Prod.mk.inj hspan
    have hhead : head = '.' := by
      have := List.head_dropWhile_not (p := (· != '.')) (l := name) (by simp [hrest])
      simpa [hrest] using this
    split at hsplit
    · simp at hsplit
    next hdigits =>
      split at hsplit
      · simp at hsplit
      next htime =>
        obtain ⟨rfl, rfl⟩ : offset = digits ∧ rest = time := by simpa using hsplit
        rw [not_not] at hdigits htime
        refine ⟨?_, hdigits.1, hdigits.2, htime.1, htime.2⟩
        rw [← hhead, ← hrest, ← hoffset, List.takeWhile_append_dropWhile]

theorem length_timeText {created : Instant} (hyear : created.InCalendar) :
    (timeText created).length = 14 := by
  rw [Instant.InCalendar] at hyear
  simp [timeText, yearText, hyear]

theorem all_isDigit_timeText {created : Instant} (hyear : created.InCalendar) :
    (timeText created).all Char.isDigit = true := by
  rw [Instant.InCalendar] at hyear
  simp [-List.all_eq_true, timeText, yearText, hyear, Decimal.all_isDigit_padded]

/-- A name that tells an offset: twenty digits of it, a point, and fourteen more digits. -/
theorem exists_of_offset_eq_ok {name : String} {start : Nat} (hname : offset name = .ok start) :
    ∃ digits time, name.toList = digits ++ '.' :: time ∧ digits.length = 20 ∧
      time.length = 14 ∧ Decimal.parseFrom 0 digits = .ok start := by
  unfold offset blame at hname
  cases hsplit : split name.toList with
  | error cause => simp [hsplit, bind, Except.bind] at hname
  | ok fields =>
    obtain ⟨digits, time⟩ := fields
    obtain ⟨htext, hlength, hall, htime, -⟩ := exists_of_split_eq_ok hsplit
    refine ⟨digits, time, htext, hlength, htime, ?_⟩
    cases digits with
    | nil => simp at hlength
    | cons first rest =>
      have hplus : first ≠ '+' := by
        rintro rfl
        simp at hall
      have hparse : Decimal.parse (first :: rest) = Decimal.parseFrom 0 (first :: rest) := by
        unfold Decimal.parse
        split <;> simp_all
      cases hread : Decimal.parseFrom 0 (first :: rest) with
      | ok value =>
        simp only [hsplit, bind, Except.bind, hparse, hread, Except.ok.injEq] at hname
        rw [hname]
      | error cause => simp [hsplit, bind, Except.bind, hparse, hread] at hname

/-- The name made for an offset tells that offset. -/
theorem offset_encode {start : Nat} {created : Instant} (hstart : start ≤ Decimal.maxValue)
    (hyear : created.InCalendar) : offset (encode start created) = .ok start := by
  have hsplit : split (encode start created).toList
      = .ok (Decimal.padded 20 start, timeText created) := by
    rw [encode, String.toList_ofList]
    exact split_eq_ok (by simp) (Decimal.all_isDigit_padded 20 start) (length_timeText hyear)
      (all_isDigit_timeText hyear)
  have hlt : start % 10 ^ 20 = start := Nat.mod_eq_of_lt (lt_of_le_of_lt hstart (by decide))
  have hread : Decimal.parse (Decimal.padded 20 start) = .ok start := by
    have hfrom := Decimal.parseFrom_padded 20 0 start (by rw [hlt]; omega)
    rw [Nat.zero_mul, Nat.zero_add, hlt] at hfrom
    rw [← hfrom]
    have hdigit := Decimal.isDigit_digit (start / Nat.pow 10 19)
    have hplus : Decimal.digit (start / Nat.pow 10 19) ≠ '+' := by
      intro h
      rw [h] at hdigit
      simp at hdigit
    rw [Decimal.padded]
    unfold Decimal.parse
    split <;> simp_all
  simp [offset, blame, hsplit, bind, Except.bind, hread]

/-- Names ascend as the offsets that they tell. -/
theorem lt_of_offset_lt {first second : String} {low high : Nat}
    (hfirst : offset first = .ok low) (hsecond : offset second = .ok high) (hlt : low < high) :
    first < second := by
  obtain ⟨digits, time, htext, hlength, -, hread⟩ := exists_of_offset_eq_ok hfirst
  obtain ⟨others, moment, htextOther, hlengthOther, -, hreadOther⟩ := exists_of_offset_eq_ok hsecond
  rw [String.lt_iff_toList_lt, htext, htextOther]
  exact Decimal.append_lt_append_of_parseFrom hread hreadOther
    (hlength.trans hlengthOther.symm) hlt _ _

theorem utf8ByteSize_le (name : String) : name.utf8ByteSize ≤ 4 * name.toList.length := by
  obtain ⟨chars, rfl⟩ := name.exists_eq_ofList
  rw [String.toList_ofList, ← String.size_toByteArray, String.toByteArray_ofList]
  induction chars with
  | nil => simp
  | cons c rest ih =>
    have hfour := c.utf8Size_le_four
    rw [List.utf8Encode_cons, ByteArray.size_append, List.utf8Encode_singleton,
      List.size_toByteArray, String.length_utf8EncodeChar, List.length_cons]
    omega

/-- A name that tells an offset is short enough for any directory. -/
theorem utf8ByteSize_le_maxNameLength {name : String} {start : Nat}
    (hname : offset name = .ok start) : name.utf8ByteSize ≤ maxNameLength := by
  obtain ⟨digits, time, htext, hlength, htime, -⟩ := exists_of_offset_eq_ok hname
  have hsize := utf8ByteSize_le name
  rw [htext, List.length_append, List.length_cons, hlength, htime] at hsize
  exact hsize.trans (by decide)

end SegmentName

/-- The segment of a name holds the name and the offset that it tells. -/
theorem Segment.ofName_eq_ok_iff {name : String} {segment : Segment} :
    ofName name = .ok segment ↔
      segment.name = name ∧ SegmentName.offset name = .ok segment.offset := by
  unfold ofName
  cases hoffset : SegmentName.offset name with
  | error fault => simp [bind, Except.bind]
  | ok start =>
    simp only [bind, Except.bind, Except.ok.injEq]
    constructor
    · rintro rfl
      exact ⟨rfl, rfl⟩
    · rintro ⟨rfl, rfl⟩
      rfl

end ReplicatedLog
