import Mathlib.Data.Nat.Digits.Lemmas
import ReplicatedLog.Proofs.Wire.Varint

namespace ReplicatedLog.Varint

/-- The low seven bits of each byte, each with 128 times the weight of the one before. -/
def sum (groups : Bytes) : Nat :=
  ((groups.map fun byte => byte.toNat % 128).mapIdx fun place bits => bits * 128 ^ place).sum

/-- The first `count` bytes spell a number: the high bit marks all of them but the last, and the low
    seven bits of all add up to a number of 64 bits. -/
structure Spells (bytes : Bytes) (count number : Nat) : Prop where
  one_le : 1 ≤ count
  le_ten : count ≤ 10
  marked : ∀ byte ∈ bytes.take (count - 1), 128 ≤ byte.toNat
  last : ∃ byte, bytes[count - 1]? = some byte ∧ byte.toNat < 128
  sum_eq : sum (bytes.take count) = number
  fits : number < 2 ^ 64

/-- Fewer bytes than any number may have, and all of them ask for more. -/
def Unfinished (bytes : Bytes) : Prop :=
  bytes.length < 10 ∧ ∀ byte ∈ bytes, 128 ≤ byte.toNat

variable {groups bytes rest : Bytes} {byte : UInt8} {number count left shift start : Nat}

theorem sum_cons (byte : UInt8) (groups : Bytes) :
    sum (byte :: groups) = byte.toNat % 128 + 128 * sum groups := by
  simp only [sum, ← Nat.ofDigits_eq_sum_mapIdx, List.map_cons, Nat.ofDigits_cons]

theorem sum_singleton (hlast : byte.toNat < 128) : sum [byte] = byte.toNat := by
  rw [sum_cons, Nat.mod_eq_of_lt hlast]
  rfl

/-- Marked bytes in front of one that is not are groups, and of no other number than their sum. -/
theorem groups_concat_iff :
    Groups groups number ↔ ∃ marked last, groups = marked ++ [last] ∧
      (∀ byte ∈ marked, 128 ≤ byte.toNat) ∧ last.toNat < 128 ∧ sum groups = number := by
  constructor
  · intro hgroups
    induction hgroups with
    | @last byte hlast =>
      exact ⟨[], byte, rfl, fun _ hmem => absurd hmem List.not_mem_nil, hlast, sum_singleton hlast⟩
    | @more byte groups number hmarked _ ih =>
      obtain ⟨marked, last, rfl, hall, hlast, hsum⟩ := ih
      refine ⟨byte :: marked, last, rfl, ?_, hlast, by rw [sum_cons, hsum]⟩
      intro other hmem
      rcases List.mem_cons.mp hmem with rfl | hmem
      · exact hmarked
      · exact hall other hmem
  · rintro ⟨marked, last, rfl, hall, hlast, rfl⟩
    induction marked with
    | nil =>
      rw [List.nil_append, sum_singleton hlast]
      exact .last hlast
    | cons byte marked ih =>
      rw [List.cons_append, sum_cons]
      exact .more (hall byte List.mem_cons_self) (ih fun other hmem =>
        hall other (List.mem_cons_of_mem _ hmem))

theorem Spells.le_length (hspells : Spells bytes count number) : count ≤ bytes.length := by
  obtain ⟨byte, hbyte, -⟩ := hspells.last
  have hlt := (List.getElem?_eq_some_iff.mp hbyte).1
  have hpos := hspells.one_le
  omega

theorem Spells.form (hspells : Spells bytes count number) : Form (bytes.take count) number := by
  obtain ⟨last, hlast, hsmall⟩ := hspells.last
  obtain ⟨before, rfl⟩ := Nat.exists_eq_add_of_le' hspells.one_le
  rw [Nat.add_sub_cancel] at hlast
  refine ⟨groups_concat_iff.mpr ⟨bytes.take before, last, ?_, hspells.marked, hsmall,
    hspells.sum_eq⟩, ?_, Decimal.le_maxValue_iff.mpr hspells.fits⟩
  · rw [List.take_add_one, hlast]
    rfl
  · exact (List.length_take_le _ _).trans hspells.le_ten

theorem Form.spells (hform : Form groups number) (rest : Bytes) :
    Spells (groups ++ rest) groups.length number := by
  obtain ⟨marked, last, rfl, hall, hsmall, hsum⟩ := groups_concat_iff.mp hform.made
  have hbefore : (marked ++ [last]).length - 1 = marked.length := by
    rw [List.length_append, List.length_singleton, Nat.add_sub_cancel]
  refine ⟨hform.made.length_pos, hform.count, ?_, ⟨last, ?_, hsmall⟩, ?_,
    Decimal.le_maxValue_iff.mp hform.fits⟩
  · rw [hbefore, List.append_assoc, List.take_left]
    exact hall
  · rw [hbefore, List.append_assoc, List.getElem?_append_right (le_refl _), Nat.sub_self]
    rfl
  · rw [List.take_left]
    exact hsum

/-- A number is read where bytes spell it, and all bytes behind them are left. -/
theorem decode_eq_ok_iff_spells :
    decode bytes = (.ok number, rest) ↔ ∃ count, rest = bytes.drop count ∧ Spells bytes count number := by
  rw [decode_eq_ok_iff]
  constructor
  · rintro ⟨groups, rfl, hform⟩
    exact ⟨groups.length, List.drop_left.symm, hform.spells rest⟩
  · rintro ⟨count, rfl, hspells⟩
    exact ⟨bytes.take count, (List.take_append_drop count bytes).symm, hspells.form⟩

/-- The end is noticed if and only if all groups that there can be more of ask for more. -/
theorem decodeFrom_truncated_iff (hleft : shift + 7 * left = 70) :
    (decodeFrom left shift start bytes).1 = .error (.truncated .varint) ↔
      bytes.length < left ∧ ∀ byte ∈ bytes, 128 ≤ byte.toNat := by
  fun_induction decodeFrom left shift start bytes with
  | case1 => simp
  | case2 => simp
  | case3 left shift start byte rest bits hroom =>
    -- the tenth byte is there
    refine iff_of_false (by simp) fun hunfinished => ?_
    have hshort := hunfinished.1
    rw [List.length_cons] at hshort
    omega
  | case4 left shift start byte rest bits hroom hlast =>
    refine iff_of_false (by simp) fun hunfinished => ?_
    exact absurd (hunfinished.2 byte List.mem_cons_self) (Nat.not_le.mpr hlast)
  | case5 left shift start byte rest bits hroom hmarked ih =>
    rw [ih (by omega), List.length_cons, Nat.add_lt_add_iff_right, List.forall_mem_cons]
    exact and_congr_right fun _ => ⟨fun hall => ⟨Nat.not_lt.mp hmarked, hall⟩, And.right⟩

theorem decode_truncated_iff :
    (decode bytes).1 = .error (.truncated .varint) ↔ Unfinished bytes :=
  decodeFrom_truncated_iff rfl

/-- Too large a number is what is left where bytes neither spell one nor end too early. -/
theorem decode_overflow_iff :
    (decode bytes).1 = .error .varintOverflow ↔
      (¬ ∃ count number, Spells bytes count number) ∧ ¬ Unfinished bytes := by
  rw [← decode_truncated_iff]
  obtain ⟨outcome, rest, hread⟩ : ∃ outcome rest, decode bytes = (outcome, rest) := ⟨_, _, rfl⟩
  rw [hread]
  cases outcome with
  | error fault =>
    have hnone : ¬ ∃ count number, Spells bytes count number := by
      rintro ⟨count, number, hspells⟩
      have hok := decode_eq_ok_iff_spells.mpr ⟨count, rfl, hspells⟩
      rw [hread] at hok
      cases hok
    rcases fault_of_decodeFrom hread with rfl | rfl
    · simp
    · simp [hnone]
  | ok number =>
    obtain ⟨count, -, hspells⟩ := decode_eq_ok_iff_spells.mp hread
    simp only [reduceCtorEq, not_false_eq_true, and_true, false_iff, not_not]
    exact ⟨count, number, hspells⟩

/-- Every byte string falls into one of three classes, and what is read tells which. What is written for
    a number is read back in front of anything, and no other bytes that spell it are fewer. -/
theorem decode_classifies :
    (∀ bytes count number, count ≤ bytes.length ∧ decode bytes = (.ok number, bytes.drop count) ↔
        Spells bytes count number) ∧
      (∀ bytes, (decode bytes).1 = .error (.truncated .varint) ↔ Unfinished bytes) ∧
      (∀ bytes, (decode bytes).1 = .error .varintOverflow ↔
        (¬ ∃ count number, Spells bytes count number) ∧ ¬ Unfinished bytes) ∧
      (∀ number < 2 ^ 64, ∀ suffix, decode (encode number ++ suffix) = (.ok number, suffix)) ∧
      (∀ number, (encode number).length = length number) ∧
      (∀ bytes count number, count ≤ bytes.length → decode bytes = (.ok number, bytes.drop count) →
        length number ≤ count) := by
  have hclass : ∀ bytes count number, count ≤ bytes.length ∧
      decode bytes = (.ok number, bytes.drop count) ↔ Spells bytes count number := by
    intro bytes count number
    constructor
    · rintro ⟨hcount, hread⟩
      obtain ⟨other, hrest, hspells⟩ := decode_eq_ok_iff_spells.mp hread
      have hother := hspells.le_length
      have hlength := congrArg List.length hrest
      rw [List.length_drop, List.length_drop] at hlength
      obtain rfl : count = other := by omega
      exact hspells
    · intro hspells
      exact ⟨hspells.le_length, decode_eq_ok_iff_spells.mpr ⟨count, rfl, hspells⟩⟩
  refine ⟨hclass, fun _ => decode_truncated_iff, fun _ => decode_overflow_iff, ?_, length_encode, ?_⟩
  · intro number hfits suffix
    exact decode_encode (Decimal.le_maxValue_iff.mpr hfits) suffix
  · intro bytes count number hcount hread
    have hform := ((hclass bytes count number).mp ⟨hcount, hread⟩).form
    exact hform.made.length_le.trans (List.length_take_le _ _)

/-- Three bytes for a number that needs two, the largest number, nine bytes without an end, and ten that
    end in a digit too large. -/
theorem decode_classifies_overlong :
    (Spells [0xac, 0x82, 0x00, 0x07] 3 300 ∧
      decode [0xac, 0x82, 0x00, 0x07] = (.ok 300, [0x07]) ∧ length 300 ≤ 3) ∧
      (2 ^ 64 - 1 < 2 ^ 64 ∧
        decode (encode (2 ^ 64 - 1) ++ [0x07]) = (.ok (2 ^ 64 - 1), [0x07])) ∧
      (decode (List.replicate 9 0x80)).1 = .error (.truncated .varint) ∧
      (decode (List.replicate 9 0xff ++ [0x02])).1 = .error .varintOverflow := by
  obtain ⟨hread, hcut, -, hwritten, -, hshortest⟩ := decode_classifies
  have hspells : Spells [0xac, 0x82, 0x00, 0x07] 3 300 :=
    ⟨by decide, by decide, by simp, ⟨0x00, rfl, by decide⟩, rfl, by decide⟩
  have hfirst := (hread _ _ _).mpr hspells
  have hmax : 2 ^ 64 - 1 < 2 ^ 64 := by decide
  refine ⟨⟨hspells, hfirst.2, hshortest _ _ _ hfirst.1 hfirst.2⟩,
    ⟨hmax, hwritten _ hmax _⟩, (hcut _).mpr ?_, by rfl⟩
  exact ⟨by decide, by simp⟩

end ReplicatedLog.Varint
