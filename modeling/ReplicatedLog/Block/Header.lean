import ReplicatedLog.Wire.Number

namespace ReplicatedLog

/-- The lengths in front of the payload of a block. -/
structure BlockHeader where
  /-- Bytes of entry data. -/
  raw : Nat
  /-- Bytes of payload. -/
  compressed : Nat
  deriving DecidableEq, Repr

namespace BlockHeader

/-- The widest length field. -/
def maxWidth : Nat := 4

def rawWidth (header : BlockHeader) : Nat := FixedWidth.width header.raw
def compressedWidth (header : BlockHeader) : Nat := FixedWidth.width header.compressed

/-- A header whose lengths fit their fields. -/
def create (raw compressed : Nat) : Except Fault BlockHeader :=
  if maxWidth < FixedWidth.width raw ∨ maxWidth < FixedWidth.width compressed then
    .error (.corruption (.blockLengths raw compressed))
  else .ok ⟨raw, compressed⟩

/-- The bytes of the header, with fields as narrow as can be. -/
def encodedLength (header : BlockHeader) : Nat :=
  1 + header.rawWidth + header.compressedWidth

/-- The bytes of the header and the payload. -/
def frameLength (header : BlockHeader) : Nat :=
  header.encodedLength + header.compressed

/-- The byte that tells the widths of both lengths, each less one. -/
def selector (header : BlockHeader) : UInt8 :=
  UInt8.ofNat ((header.rawWidth - 1) * 4 + (header.compressedWidth - 1))

def encode (header : BlockHeader) : Bytes :=
  header.selector :: Bytes.ofNatBE header.rawWidth header.raw
    ++ Bytes.ofNatBE header.compressedWidth header.compressed

/-- The width of the raw length that a selector tells. -/
def selectedRawWidth (selector : UInt8) : Nat := selector.toNat / 4 % 4 + 1

/-- The width of the compressed length that a selector tells. -/
def selectedCompressedWidth (selector : UInt8) : Nat := selector.toNat % 4 + 1

/-- The width of both lengths that a selector tells. -/
def selectedWidth (selector : UInt8) : Nat :=
  selectedRawWidth selector + selectedCompressedWidth selector

/-- The lengths behind a selector, whose four high bits must be zero. -/
def ofFields (selector : UInt8) (fields : Bytes) : Except Fault BlockHeader :=
  if 16 ≤ selector.toNat then .error (.corruption (.selectorBits selector))
  else
    let width := selectedRawWidth selector
    .ok ⟨Bytes.toNatBE (fields.take width),
      Bytes.toNatBE ((fields.drop width).take (selectedCompressedWidth selector))⟩

/-- Reads the header at the front of `bytes`; none while it is not complete. -/
def decode : Bytes → Except Fault (Option BlockHeader)
  | [] => .ok none
  | selector :: rest =>
    if 16 ≤ selector.toNat then .error (.corruption (.selectorBits selector))
    else if rest.length < selectedWidth selector then .ok none
    else (ofFields selector rest).map some

end BlockHeader

end ReplicatedLog
