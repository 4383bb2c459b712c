import Mathlib.Order.Basic
import ReplicatedLog.Checkpoint

namespace ReplicatedLog

namespace Decimal

/-- Digits are read as long as the number that they make fits into 64 bits. -/
theorem parseFrom_digits {start : Nat} {digits : List Char}
    (hdigits : ∀ c ∈ digits, c.isDigit = true)
    (hfits : Nat.ofDigitChars 10 digits start ≤ maxValue) :
    parseFrom start digits = .ok (Nat.ofDigitChars 10 digits start) := by
  induction digits generalizing start with
  | nil => rfl
  | cons c rest ih =>
    have hnext : start * 10 + (c.toNat - 48) = 10 * start + (c.toNat - '0'.toNat) := by
      rw [Nat.mul_comm]
      rfl
    rw [Nat.ofDigitChars_cons, ← hnext] at hfits ⊢
    have hbound : start * 10 + (c.toNat - 48) ≤ maxValue := by
      rw [Nat.ofDigitChars_eq_ofDigitChars_zero] at hfits
      have hpos : 0 < 10 ^ rest.length := Nat.pow_pos (by decide)
      have hle := Nat.le_mul_of_pos_left (start * 10 + (c.toNat - 48)) hpos
      omega
    simp only [parseFrom, hdigits c List.mem_cons_self, Bool.not_true, Bool.false_eq_true, if_false,
      if_neg (Nat.not_lt.mpr hbound)]
    exact ih (fun digit hmem => hdigits digit (List.mem_cons_of_mem _ hmem)) hfits

theorem parseFrom_le {start value : Nat} {digits : List Char}
    (hread : parseFrom start digits = .ok value) (hstart : start ≤ maxValue) : value ≤ maxValue := by
  induction digits generalizing start with
  | nil => exact Except.ok.inj hread ▸ hstart
  | cons c rest ih =>
    unfold parseFrom at hread
    dsimp only at hread
    split at hread
    · cases hread
    · split at hread
      next => cases hread
      next hbound => exact ih hread (Nat.not_lt.mp hbound)

/-- What is read fits into 64 bits. -/
theorem parse_le {digits : List Char} {value : Nat} (hread : parse digits = .ok value) :
    value ≤ maxValue := by
  unfold parse at hread
  split at hread
  · cases hread
  · cases hread
  · exact parseFrom_le hread (Nat.zero_le _)
  · exact parseFrom_le hread (Nat.zero_le _)

theorem isDigit_of_mem_toString {value : Nat} {c : Char} (hmem : c ∈ (toString value).toList) :
    c.isDigit = true := by
  rw [Nat.toString_eq_ofList_toDigits, String.toList_ofList] at hmem
  exact Nat.isDigit_of_mem_toDigits (by decide) (by decide) hmem

theorem parse_toString {value : Nat} (hfits : value ≤ maxValue) :
    parse (toString value).toList = .ok value := by
  have hdigits := @isDigit_of_mem_toString value
  rw [Nat.toString_eq_ofList_toDigits, String.toList_ofList] at hdigits ⊢
  obtain ⟨first, rest, hcons⟩ := List.exists_cons_of_ne_nil (Nat.toDigits_ne_nil (n := value) (b := 10))
  have hvalue : Nat.ofDigitChars 10 (first :: rest) 0 = value :=
    hcons ▸ Nat.ofDigitChars_ten_toDigits
  have hread := @parseFrom_digits 0 _ (hcons ▸ fun c => hdigits) (hvalue.trans_le hfits)
  have hsign : first ≠ '+' := by
    rintro rfl
    have hdigit := hdigits (hcons ▸ List.mem_cons_self)
    simp at hdigit
  rw [hvalue] at hread
  rw [hcons, ← hread]
  unfold parse
  split
  · contradiction
  · simp_all
  · simp_all
  · rfl

end Decimal

namespace Checkpoint

theorem not_isBlank_of_isDigit {c : Char} (hdigit : c.isDigit = true) : isBlank c = false := by
  have hrange := Char.isDigit_iff_toNat.mp hdigit
  have hlast : '9'.toNat = 57 := rfl
  have hfirst : '0'.toNat = 48 := rfl
  simp only [isBlank, decide_eq_false_iff_not]
  omega

/-- Nothing is cut off from digits. -/
theorem trim_digits {cs : List Char} (hdigits : ∀ c ∈ cs, c.isDigit = true) : trim cs = cs := by
  have hkept : ∀ others : List Char, (∀ c ∈ others, c.isDigit = true) →
      others.dropWhile isBlank = others := by
    intro others hothers
    cases others with
    | nil => rfl
    | cons c rest =>
      rw [List.dropWhile_cons_of_neg]
      simp [not_isBlank_of_isDigit (hothers c List.mem_cons_self)]
  rw [trim, hkept cs hdigits, hkept cs.reverse fun c hmem => hdigits c (List.mem_reverse.mp hmem),
    List.reverse_reverse]

end Checkpoint

end ReplicatedLog
