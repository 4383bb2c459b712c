import ReplicatedLog.Fault

namespace ReplicatedLog.Decimal

/-- The largest number of 64 bits. -/
def maxValue : Nat := 0xffffffffffffffff

theorem le_maxValue_iff {value : Nat} : value ≤ maxValue ↔ value < Nat.pow 2 64 :=
  Nat.lt_succ_iff.symm

/-- A number of 64 bits is itself modulo their number. -/
theorem mod_eq {value : Nat} (hbound : value ≤ maxValue) : value % (maxValue + 1) = value :=
  Nat.mod_eq_of_lt (Nat.lt_succ_of_le hbound)

/-- One decimal digit. -/
def digit (value : Nat) : Char :=
  Char.ofNat (48 + value % 10)

/-- The low `width` decimal digits of `value`, with leading zeros. -/
def padded : (width : Nat) → (value : Nat) → List Char
  | 0, _ => []
  | width + 1, value => digit (value / Nat.pow 10 width) :: padded width value

/-- The number whose decimal digits are `digits`. -/
def value (digits : List Char) : Nat :=
  digits.foldl (fun value c => value * 10 + (c.toNat - 48)) 0

/-- Reads digits behind a number already read. A character that is no digit is noticed before
    a number that grows too large at the same place. -/
def parseFrom : (value : Nat) → List Char → Except NumberFault Nat
  | value, [] => .ok value
  | value, c :: rest =>
    if !c.isDigit then .error .invalidDigit
    else
      let next := value * 10 + (c.toNat - 48)
      if maxValue < next then .error .tooLarge else parseFrom next rest

/-- Reads a number of 64 bits. One plus sign may stand in front of the digits. -/
def parse : List Char → Except NumberFault Nat
  | [] => .error .empty
  | ['+'] => .error .invalidDigit
  | '+' :: digits => parseFrom 0 digits
  | digits => parseFrom 0 digits

/-- All digits of a finite float, with at least one behind the point. -/
def ofFloat (x : Float) : String :=
  let bits := x.toBits.toNat
  let biased := bits / 0x10000000000000 % 2048
  let m := bits % 0x10000000000000 + (if biased = 0 then 0 else 0x10000000000000)
  let scale := 1075 - max biased 1
  let (value, places) :=
    if 1075 ≤ biased then (m * Nat.pow 2 (biased - 1075) * 10, 1)
    else (m * Nat.pow 5 scale * 10, scale + 1)
  let sign := if bits < 0x8000000000000000 then "" else "-"
  let whole := value / Nat.pow 10 places
  let fraction := String.ofList (padded places (value % Nat.pow 10 places))
  s!"{sign}{whole}.{fraction}"

end ReplicatedLog.Decimal
