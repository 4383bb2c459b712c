import ReplicatedLog.Bytes
import ReplicatedLog.Fault

namespace ReplicatedLog.FixedWidth

/-- The fewest bytes that hold `value`, and at least one. -/
def width (value : Nat) : Nat :=
  if value = 0 then 1 else Nat.log2 value / 8 + 1

/-- Reads a number of `width` bytes, most significant first, for the field `name`. -/
def decode (name : String) (width : Nat) (bytes : Bytes) : Except WireFault (Nat × Bytes) :=
  if width < 1 ∨ 8 < width then .error (.malformed (.fieldWidth name width))
  else if bytes.length < width then .error (.truncated (.field name width bytes.length))
  else .ok (Bytes.toNatBE (bytes.take width), bytes.drop width)

end ReplicatedLog.FixedWidth

namespace ReplicatedLog.Varint

/-- The most bytes a 64-bit number takes. -/
def maxLength : Nat := 10

/-- Seven bits per byte, least significant group first; the high bit marks every byte but the
    last. -/
def encode (value : Nat) : Bytes :=
  if value < 128 then [UInt8.ofNat value]
  else UInt8.ofNat (value % 128 + 128) :: encode (value / 128)

/-- One byte per seven significant bits, and at least one. -/
def length (value : Nat) : Nat :=
  if value = 0 then 1 else Nat.log2 value / 7 + 1

/-- Reads the groups from bit `shift` on, at most `left` of them, on top of `value`. -/
def decodeFrom : (left shift value : Nat) → Bytes → Except WireFault Nat × Bytes
  | 0, _, _, rest => (.error .varintOverflow, rest)
  | _ + 1, _, _, [] => (.error (.truncated .varint), [])
  | left + 1, shift, value, byte :: rest =>
    let bits := byte.toNat % 128
    if shift = 63 ∧ 1 < bits then (.error .varintOverflow, rest)
    else if byte.toNat < 128 then (.ok (value + bits * Nat.pow 2 shift), rest)
    else decodeFrom left (shift + 7) (value + bits * Nat.pow 2 shift) rest

/-- Reads one 64-bit number and gives the bytes behind what was looked at, also on failure. -/
def decode (bytes : Bytes) : Except WireFault Nat × Bytes :=
  decodeFrom maxLength 0 0 bytes

/-- A read number leaves fewer bytes than there were. -/
theorem length_decodeFrom_lt {left shift value result : Nat} {bytes rest : Bytes}
    (hread : decodeFrom left shift value bytes = (.ok result, rest)) :
    rest.length < bytes.length := by
  fun_induction decodeFrom left shift value bytes with
  | case1 => simp at hread
  | case2 => simp at hread
  | case3 => simp at hread
  | case4 =>
    obtain ⟨_, rfl⟩ := Prod.mk.inj hread
    simp
  | case5 _ _ _ _ _ _ _ _ ih =>
    have := ih hread
    simp only [List.length_cons]
    omega

theorem length_decode_lt {result : Nat} {bytes rest : Bytes}
    (hread : decode bytes = (.ok result, rest)) : rest.length < bytes.length :=
  length_decodeFrom_lt hread

/-- Every number in a row of them, up to the end or the first that does not read. -/
def decodeAll (bytes : Bytes) : List Nat × Option WireFault × Bytes :=
  if bytes.isEmpty then ([], none, [])
  else
    match hread : decode bytes with
    | (.error fault, rest) => ([], some fault, rest)
    | (.ok value, rest) =>
      have := length_decode_lt hread
      let (values, fault, rest) := decodeAll rest
      (value :: values, fault, rest)
termination_by bytes.length

end ReplicatedLog.Varint
