namespace ReplicatedLog

/-- A byte string, as it is read from or written to a disk or a connection. -/
abbrev Bytes := List UInt8

namespace Bytes

/-- The number whose base-256 digits are `bytes`, most significant first. -/
def toNatBE (bytes : Bytes) : Nat :=
  bytes.foldl (fun value byte => value * 256 + byte.toNat) 0

/-- The number whose base-256 digits are `bytes`, least significant first. -/
def toNatLE (bytes : Bytes) : Nat :=
  bytes.foldr (fun byte value => value * 256 + byte.toNat) 0

/-- The low `width` base-256 digits of `value`, most significant first. -/
def ofNatBE : (width : Nat) → (value : Nat) → Bytes
  | 0, _ => []
  | width + 1, value => UInt8.ofNat (value / Nat.pow 256 width) :: ofNatBE width value

/-- The low `width` base-256 digits of `value`, least significant first. -/
def ofNatLE : (width : Nat) → (value : Nat) → Bytes
  | 0, _ => []
  | width + 1, value => UInt8.ofNat value :: ofNatLE width (value / 256)

/-- One lowercase hexadecimal digit. -/
def hexDigit (value : Nat) : Char :=
  Char.ofNat (if value < 10 then 48 + value else 87 + value)

/-- Two lowercase hexadecimal digits per byte. -/
def toHex (bytes : Bytes) : String :=
  String.ofList (bytes.flatMap fun byte => [hexDigit (byte.toNat / 16), hexDigit (byte.toNat % 16)])

/-- The value of a lowercase hexadecimal digit. -/
def hexValue (c : Char) : Nat :=
  if c.isDigit then c.toNat - 48 else c.toNat - 87

/-- The bytes of pairs of lowercase hexadecimal digits. -/
def ofHexDigits : List Char → Bytes
  | high :: low :: rest => UInt8.ofNat (hexValue high * 16 + hexValue low) :: ofHexDigits rest
  | _ => []

@[simp] theorem length_ofNatBE (width value : Nat) : (ofNatBE width value).length = width := by
  induction width with
  | zero => rfl
  | succ width ih => simp [ofNatBE, ih]

@[simp] theorem length_ofNatLE (width value : Nat) : (ofNatLE width value).length = width := by
  induction width generalizing value with
  | zero => rfl
  | succ width ih => simp [ofNatLE, ih]

end Bytes

end ReplicatedLog
