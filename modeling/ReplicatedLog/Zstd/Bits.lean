import ReplicatedLog.Bytes

namespace ReplicatedLog.Zstd

/-- The bits of a byte, most significant first. -/
def highBits (byte : UInt8) : List Bool :=
  [7, 6, 5, 4, 3, 2, 1, 0].map byte.toNat.testBit

/-- The bits of a byte, least significant first. -/
def lowBits (byte : UInt8) : List Bool :=
  [0, 1, 2, 3, 4, 5, 6, 7].map byte.toNat.testBit

/-- The bits of a stream that is read from its end: the highest one bit of the last byte only
    marks where the stream starts. None for an empty stream and one without the mark. -/
def backwardBits? (bytes : Bytes) : Option (List Bool) :=
  match bytes.reverse with
  | [] => none
  | last :: rest =>
    if last = 0 then none
    else some (((highBits last).dropWhile (! ·)).drop 1 ++ rest.flatMap highBits)

/-- Reads `count` bits, most significant first, behind those of `value`. -/
def takeHigh : (count value : Nat) → List Bool → Option (Nat × List Bool)
  | 0, value, bits => some (value, bits)
  | _ + 1, _, [] => none
  | count + 1, value, bit :: bits => takeHigh count (2 * value + bit.toNat) bits

/-- The number that the next `count` bits make, most significant first, with zeros behind the
    end. -/
def peekHigh : (count value : Nat) → List Bool → Nat
  | 0, value, _ => value
  | count + 1, value, [] => peekHigh count (2 * value) []
  | count + 1, value, bit :: bits => peekHigh count (2 * value + bit.toNat) bits

/-- Drops `count` bits; none if there are not so many. -/
def skipBits? : (count : Nat) → List Bool → Option (List Bool)
  | 0, bits => some bits
  | _ + 1, [] => none
  | count + 1, _ :: bits => skipBits? count bits

/-- A stream that is read from its start, least significant bit first, with zeros behind its end,
    and the number of bits used so far. -/
structure ForwardBits where
  bits : List Bool
  used : Nat := 0

namespace ForwardBits

def ofBytes (bytes : Bytes) : ForwardBits :=
  { bits := bytes.flatMap lowBits }

/-- The number that the next `count` bits make, least significant first. -/
def peek (stream : ForwardBits) (count : Nat) : Nat :=
  (stream.bits.take count).foldr (fun bit value => 2 * value + bit.toNat) 0

def skip (stream : ForwardBits) (count : Nat) : ForwardBits :=
  ⟨stream.bits.drop count, stream.used + count⟩

/-- The bytes touched so far. -/
def usedBytes (stream : ForwardBits) : Nat :=
  (stream.used + 7) / 8

end ForwardBits

end ReplicatedLog.Zstd
