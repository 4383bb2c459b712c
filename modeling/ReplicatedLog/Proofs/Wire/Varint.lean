import Mathlib.Tactic.Ring
import ReplicatedLog.Text.Decimal
import ReplicatedLog.Wire.Number

namespace ReplicatedLog.Varint

/-- Groups of seven bits and the number they make, the least significant group first. All bytes but
    the last are marked. -/
inductive Groups : Bytes → Nat → Prop
  | last {byte : UInt8} (hlast : byte.toNat < 128) : Groups [byte] byte.toNat
  | more {byte : UInt8} {groups : Bytes} {number : Nat} (hmarked : 128 ≤ byte.toNat)
      (hgroups : Groups groups number) : Groups (byte :: groups) (byte.toNat % 128 + 128 * number)

/-- Groups that are read as a number: no more than ten, of a number of 64 bits. -/
structure Form (groups : Bytes) (number : Nat) : Prop where
  made : Groups groups number
  count : groups.length ≤ maxLength
  fits : number ≤ Decimal.maxValue

variable {groups bytes rest : Bytes} {number value left shift : Nat}

theorem Groups.length_pos (hgroups : Groups groups number) : 1 ≤ groups.length := by
  cases hgroups <;> simp

theorem Groups.lt_pow (hgroups : Groups groups number) : number < 128 ^ groups.length := by
  induction hgroups with
  | last hlast => simpa using hlast
  | @more byte groups number _ _ ih =>
    have hbits : byte.toNat % 128 < 128 := Nat.mod_lt _ (by decide)
    rw [List.length_cons, Nat.pow_succ]
    omega

theorem length_le_of_lt_pow {count : Nat} (hnumber : number < 128 ^ count) (hcount : 1 ≤ count) :
    length number ≤ count := by
  unfold length
  by_cases hzero : number = 0
  · rwa [if_pos hzero]
  · rw [if_neg hzero]
    rw [show 128 = 2 ^ 7 from rfl, ← Nat.pow_mul] at hnumber
    have hlog := (Nat.log2_lt hzero).mpr hnumber
    omega

/-- No groups of a number are fewer than those that are written for it. -/
theorem Groups.length_le (hgroups : Groups groups number) : length number ≤ groups.length :=
  length_le_of_lt_pow hgroups.lt_pow hgroups.length_pos

/-- A number ends at the same place whatever is behind it. -/
theorem Groups.append_inj {groups others rest behind : Bytes} {number other : Nat}
    (hgroups : Groups groups number) (hothers : Groups others other)
    (hsame : groups ++ rest = others ++ behind) :
    groups = others ∧ number = other ∧ rest = behind := by
  induction hgroups generalizing others other with
  | @last byte hlast =>
    cases hothers with
    | last =>
      obtain ⟨rfl, hrest⟩ := List.cons.inj hsame
      exact ⟨rfl, rfl, hrest⟩
    | more hmarked =>
      obtain rfl := (List.cons.inj hsame).1
      omega
  | @more byte groups number hmarked _ ih =>
    cases hothers with
    | last hlast =>
      obtain rfl := (List.cons.inj hsame).1
      omega
    | more _ hmore =>
      obtain ⟨rfl, htail⟩ := List.cons.inj hsame
      obtain ⟨rfl, rfl, hrest⟩ := ih hmore htail
      exact ⟨rfl, rfl, hrest⟩

theorem groups_encode (number : Nat) : Groups (encode number) number := by
  induction number using encode.induct with
  | case1 number hsmall =>
    have hbyte : (UInt8.ofNat number).toNat = number := by
      rw [UInt8.toNat_ofNat']
      exact Nat.mod_eq_of_lt (by omega)
    have hlast := Groups.last (show (UInt8.ofNat number).toNat < 128 by omega)
    rw [hbyte] at hlast
    rw [encode, if_pos hsmall]
    exact hlast
  | case2 number hlarge ih =>
    have hbyte : (UInt8.ofNat (number % 128 + 128)).toNat = number % 128 + 128 := by
      rw [UInt8.toNat_ofNat']
      exact Nat.mod_eq_of_lt (by omega)
    have hmore := Groups.more (show 128 ≤ (UInt8.ofNat (number % 128 + 128)).toNat by omega) ih
    have hnumber : (number % 128 + 128) % 128 + 128 * (number / 128) = number := by omega
    rw [hbyte, hnumber] at hmore
    rw [encode, if_neg hlarge]
    exact hmore

theorem log2_div (number : Nat) (hlarge : ¬ number < 128) :
    Nat.log2 number = Nat.log2 (number / 128) + 7 := by
  have hpos : number / 128 ≠ 0 := by omega
  have hlow := Nat.log2_self_le hpos
  have hhigh := Nat.lt_log2_self (n := number / 128)
  refine (Nat.log2_eq_iff (by omega)).mpr ⟨?_, ?_⟩
  · rw [Nat.pow_add]
    exact (Nat.mul_le_mul_right _ hlow).trans (Nat.div_mul_le_self _ _)
  · have hstep : Nat.log2 (number / 128) + 7 + 1 = Nat.log2 (number / 128) + 1 + 7 := by omega
    rw [hstep, Nat.pow_add]
    exact Nat.lt_mul_of_div_lt hhigh (by decide)

theorem length_encode (number : Nat) : (encode number).length = length number := by
  induction number using encode.induct with
  | case1 number hsmall =>
    rw [encode, if_pos hsmall, length]
    by_cases hzero : number = 0
    · rw [if_pos hzero]
      rfl
    · have hlog := (Nat.log2_lt (k := 7) hzero).mpr hsmall
      rw [if_neg hzero, Nat.div_eq_of_lt hlog]
      rfl
  | case2 number hlarge ih =>
    have hlog := log2_div number hlarge
    rw [encode, if_neg hlarge, List.length_cons, ih, length, length, if_neg (by omega),
      if_neg (by omega), hlog]
    omega

/-- What is written for a number of 64 bits has one of the forms of that number. -/
theorem form_encode (hfits : number ≤ Decimal.maxValue) : Form (encode number) number where
  made := groups_encode number
  count := by
    rw [length_encode]
    exact length_le_of_lt_pow (lt_of_le_of_lt hfits (by decide)) (by decide)
  fits := hfits

/-- Groups are read on top of what was read before them, as long as they stay within 64 bits. -/
theorem decodeFrom_of_groups (hgroups : Groups groups number) (start : Nat) (rest : Bytes)
    (hcount : groups.length ≤ left) (hleft : shift + 7 * left = 70)
    (hfits : number < 2 ^ (64 - shift)) :
    decodeFrom left shift start (groups ++ rest) = (.ok (start + number * 2 ^ shift), rest) := by
  induction hgroups generalizing left shift start with
  | @last byte hlast =>
    obtain ⟨left, rfl⟩ : ∃ count, left = count + 1 := Nat.exists_eq_add_of_le' hcount
    have hbits : byte.toNat % 128 = byte.toNat := Nat.mod_eq_of_lt hlast
    have hroom : ¬ (shift = 63 ∧ 1 < byte.toNat) := by
      rintro ⟨rfl, hbits⟩
      norm_num at hfits
      omega
    simp only [List.singleton_append, decodeFrom, hbits, if_neg hroom, if_pos hlast, Nat.pow_eq]
  | @more byte groups number hmarked hgroups ih =>
    obtain ⟨left, rfl⟩ : ∃ count, left = count + 1 :=
      Nat.exists_eq_add_of_le' ((Nat.le_add_left 1 groups.length).trans hcount)
    rw [List.length_cons, Nat.add_le_add_iff_right] at hcount
    have hpos := hgroups.length_pos
    have hroom : shift ≠ 63 := by omega
    have hpow : 64 - shift = 64 - (shift + 7) + 7 := by omega
    rw [hpow, Nat.pow_add] at hfits
    have hread := @ih left (shift + 7) (start + byte.toNat % 128 * 2 ^ shift) hcount (by omega)
      (by omega)
    have hsum : start + byte.toNat % 128 * 2 ^ shift + number * 2 ^ (shift + 7) =
        start + (byte.toNat % 128 + 128 * number) * 2 ^ shift := by
      rw [Nat.pow_add]
      ring
    rw [hsum] at hread
    simp only [List.cons_append, decodeFrom, if_neg (fun hlast => hroom (And.left hlast)),
      if_neg (Nat.not_lt.mpr hmarked), Nat.pow_eq, hread]

/-- What is read are groups, and their number is added to what was read before. -/
theorem groups_of_decodeFrom {start : Nat}
    (hread : decodeFrom left shift start bytes = (.ok value, rest)) (hleft : shift + 7 * left = 70) :
    ∃ groups number, bytes = groups ++ rest ∧ Groups groups number ∧ groups.length ≤ left ∧
      number < 2 ^ (64 - shift) ∧ value = start + number * 2 ^ shift := by
  fun_induction decodeFrom left shift start bytes with
  | case1 => cases hread
  | case2 => cases hread
  | case3 => cases hread
  | case4 left shift start byte rest' bits hroom hlast =>
    obtain ⟨hvalue, rfl⟩ := Prod.mk.inj hread
    have hbits : bits = byte.toNat := Nat.mod_eq_of_lt hlast
    refine ⟨[byte], byte.toNat, rfl, .last hlast, Nat.le_add_left 1 left, ?_, ?_⟩
    · by_cases htop : shift = 63
      · subst htop
        norm_num
        omega
      · have hpow : 2 ^ 8 ≤ 2 ^ (64 - shift) := Nat.pow_le_pow_right (by decide) (by omega)
        omega
    · rw [← hbits]
      exact (Except.ok.inj hvalue).symm
  | case5 left shift start byte rest' bits hroom hmarked ih =>
    obtain ⟨groups, number, rfl, hgroups, hcount, hfits, hvalue⟩ := ih hread (by omega)
    have hpos := hgroups.length_pos
    have hpow : 64 - shift = 64 - (shift + 7) + 7 := by omega
    refine ⟨byte :: groups, bits + 128 * number, rfl, .more (Nat.not_lt.mp hmarked) hgroups,
      Nat.succ_le_succ hcount, ?_, ?_⟩
    · have hbits : bits < 128 := Nat.mod_lt _ (by decide)
      rw [hpow, Nat.pow_add]
      omega
    · rw [hvalue, Nat.pow_eq, Nat.pow_add]
      ring

/-- A number is read from any of its forms, in front of any bytes. -/
theorem Form.decode_append (hform : Form groups number) (rest : Bytes) :
    decode (groups ++ rest) = (.ok number, rest) := by
  have hfits : number < 2 ^ (64 - 0) := Decimal.le_maxValue_iff.mp hform.fits
  have hread := decodeFrom_of_groups hform.made 0 rest hform.count rfl hfits
  rwa [Nat.pow_zero, Nat.mul_one, Nat.zero_add] at hread

/-- A number is read from its forms and from nothing else. -/
theorem decode_eq_ok_iff :
    decode bytes = (.ok number, rest) ↔ ∃ groups, bytes = groups ++ rest ∧ Form groups number := by
  constructor
  · intro hread
    obtain ⟨groups, value, rfl, hgroups, hcount, hfits, hvalue⟩ := groups_of_decodeFrom hread rfl
    obtain rfl : number = value := by simpa using hvalue
    exact ⟨groups, rfl, hgroups, hcount, Decimal.le_maxValue_iff.mpr hfits⟩
  · rintro ⟨groups, rfl, hform⟩
    exact hform.decode_append rest

/-- A number of 64 bits is read back in front of any bytes. -/
theorem decode_encode (hfits : number ≤ Decimal.maxValue) (rest : Bytes) :
    decode (encode number ++ rest) = (.ok number, rest) :=
  (form_encode hfits).decode_append rest

/-- Bytes from which no number is read end too early or hold too large a number. -/
theorem fault_of_decodeFrom {start : Nat} {fault : WireFault}
    (hread : decodeFrom left shift start bytes = (.error fault, rest)) :
    fault = .truncated .varint ∨ fault = .varintOverflow := by
  fun_induction decodeFrom left shift start bytes with
  | case1 => exact .inr (Except.error.inj (Prod.mk.inj hread).1).symm
  | case2 => exact .inl (Except.error.inj (Prod.mk.inj hread).1).symm
  | case3 => exact .inr (Except.error.inj (Prod.mk.inj hread).1).symm
  | case4 => cases hread
  | case5 _ _ _ _ _ _ _ _ ih => exact ih hread

end ReplicatedLog.Varint
