import ReplicatedLog.Zstd.PrefixCode

namespace ReplicatedLog.Zstd

/-- The literals of a block, the code they leave for later blocks, and the bytes behind them. -/
structure Literals where
  bytes : Bytes
  code : Option PrefixCode
  rest : Bytes

namespace Literals

/-- The width of the header and the number of literals, where these stand as they are or repeat
    one byte. -/
def plainHeader (bytes : Bytes) (head : Nat) : Nat × Nat :=
  match head / 4 % 4 with
  | 1 => (2, Bytes.toNatLE (bytes.take 2) / 16)
  | 3 => (3, Bytes.toNatLE (bytes.take 3) / 16)
  | _ => (1, head / 8)

/-- Literals as they are. -/
def readPlain (limit : Nat) (code : Option PrefixCode) (bytes : Bytes) (head : Nat) :
    Option Literals :=
  let (width, size) := plainHeader bytes head
  if limit < size ∨ bytes.length < width + size then none
  else some ⟨(bytes.drop width).take size, code, bytes.drop (width + size)⟩

/-- One byte, repeated. -/
def readRepeated (limit : Nat) (code : Option PrefixCode) (bytes : Bytes) (head : Nat) :
    Option Literals :=
  let (width, size) := plainHeader bytes head
  match bytes.drop width with
  | [] => none
  | byte :: rest => if limit < size then none else some ⟨List.replicate size byte, code, rest⟩

/-- Literals in a prefix code, which stands in front of them or is that of an earlier block. -/
def readCoded (limit : Nat) (known : Option PrefixCode) (bytes : Bytes) (head : Nat) :
    Option Literals := do
  let format := head / 4 % 4
  let (width, field) := match format with
    | 2 => (4, 14)
    | 3 => (5, 18)
    | _ => (3, 10)
  let lengths := Bytes.toNatLE (bytes.take width) / 16
  let size := lengths % Nat.pow 2 field
  let stored := lengths / Nat.pow 2 field
  if bytes.length < 5 ∨ limit < size ∨ bytes.length < width + stored ∨ (format ≠ 0 ∧ size < 6) then none
  else
    let payload := (bytes.drop width).take stored
    let (code, streams) ← match head % 4, known with
      | 3, some code => some (code, payload)
      | 3, none => none
      | _, _ => PrefixCode.read? payload
    let literals ←
      if format = 0 then code.decodeStream size streams else code.decodeFourStreams size streams
    some ⟨literals, some code, bytes.drop (width + stored)⟩

/-- Reads the literals at the front of a block that may hold `limit` bytes. -/
def read? (limit : Nat) (known : Option PrefixCode) (bytes : Bytes) : Option Literals :=
  match bytes with
  | head :: _ :: _ =>
    match head.toNat % 4 with
    | 0 => readPlain limit known bytes head.toNat
    | 1 => readRepeated limit known bytes head.toNat
    | _ => readCoded limit known bytes head.toNat
  | _ => none

end Literals

end ReplicatedLog.Zstd
