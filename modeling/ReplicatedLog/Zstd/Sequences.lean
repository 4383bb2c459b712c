import ReplicatedLog.Zstd.StateTable

namespace ReplicatedLog.Zstd

/-- A code for a number: the smallest number it stands for, and how many bits are added to it. -/
abbrev NumberCode := Nat × Nat

def literalLengthCodes : Array NumberCode :=
  ((List.range 16).map fun length => (length, 0)).toArray ++
  #[(16, 1), (18, 1), (20, 1), (22, 1), (24, 2), (28, 2), (32, 3), (40, 3), (48, 4), (64, 6),
    (128, 7), (256, 8), (512, 9), (1024, 10), (2048, 11), (4096, 12), (8192, 13), (16384, 14),
    (32768, 15), (65536, 16)]

def matchLengthCodes : Array NumberCode :=
  ((List.range 32).map fun length => (length + 3, 0)).toArray ++
  #[(35, 1), (37, 1), (39, 1), (41, 1), (43, 2), (47, 2), (51, 3), (59, 3), (67, 4), (83, 4),
    (99, 5), (131, 7), (259, 8), (515, 9), (1027, 10), (2051, 11), (4099, 12), (8195, 13),
    (16387, 14), (32771, 15), (65539, 16)]

/-- An offset code is the number of bits behind the leading one. -/
def offsetCodes : Array NumberCode :=
  ((List.range 32).map fun bits => (Nat.pow 2 bits, bits)).toArray

def literalLengthDefault : StateTable :=
  .ofShares 6 [4, 3, 2, 2, 2, 2, 2, 2, 2, 2, 2, 2, 2, 1, 1, 1, 2, 2, 2, 2, 2, 2, 2, 2, 2, 3, 2, 1,
    1, 1, 1, 1, -1, -1, -1, -1]

def matchLengthDefault : StateTable :=
  .ofShares 6 [1, 4, 3, 2, 2, 2, 2, 2, 2, 1, 1, 1, 1, 1, 1, 1, 1, 1, 1, 1, 1, 1, 1, 1, 1, 1, 1, 1,
    1, 1, 1, 1, 1, 1, 1, 1, 1, 1, 1, 1, 1, 1, 1, 1, 1, 1, -1, -1, -1, -1, -1, -1, -1]

def offsetDefault : StateTable :=
  .ofShares 5 [1, 1, 1, 1, 1, 1, 2, 2, 2, 1, 1, 1, 1, 1, 1, 1, 1, 1, 1, 1, 1, 1, 1, 1, -1, -1, -1,
    -1, -1]

/-- The three tables of a sequence section. -/
structure SequenceTables where
  literalLengths : Option StateTable := none
  offsets : Option StateTable := none
  matchLengths : Option StateTable := none

/-- The three offsets used last, which have short codes. -/
structure RecentOffsets where
  first : Nat := 1
  second : Nat := 4
  third : Nat := 8

/-- Copies `literals` bytes from the literals, then `length` bytes from `offset` bytes back. -/
structure Sequence where
  literals : Nat
  offset : Nat
  length : Nat

/-- Reads one table in the given mode: the default, a single symbol, its own shares, or that of an
    earlier block. -/
def readTable (mode symbols maxLog : Nat) (default : StateTable) (known : Option StateTable)
    (bytes : Bytes) : Option (StateTable × Bytes) :=
  match mode, bytes with
  | 0, _ => some (default, bytes)
  | 1, [] => none
  | 1, symbol :: rest =>
    if symbol.toNat < symbols then some (.single symbol.toNat, rest) else none
  | 2, _ => StateTable.read? symbols maxLog bytes
  | _, _ => known.map fun table => (table, bytes)

/-- The number of sequences, and the bytes behind it. -/
def readSequenceCount : Bytes → Option (Nat × Bytes)
  | [] => none
  | head :: rest =>
    if head.toNat < 128 then some (head.toNat, rest)
    else
      match head.toNat, rest with
      | 255, low :: high :: rest => some (low.toNat + high.toNat * 256 + 0x7f00, rest)
      | 255, _ => none
      | head, low :: rest => some ((head - 128) * 256 + low.toNat, rest)
      | _, [] => none

/-- A number from its code and the bits added to it. -/
def readNumber (codes : Array NumberCode) (code : Nat) (bits : List Bool) :
    Option (Nat × List Bool) := do
  let (base, count) ← codes[code]?
  let (value, bits) ← takeHigh count 0 bits
  some (base + value, bits)

namespace RecentOffsets

/-- The offset that a value stands for, and the recent offsets after it. Values up to three name
    a recent one; without literals in front they name the next one on, and the third then the
    first less one. -/
def resolve (recent : RecentOffsets) (value : Nat) (noLiterals : Bool) :
    Option (Nat × RecentOffsets) :=
  let ⟨first, second, third⟩ := recent
  if 3 < value then some (value - 3, ⟨value - 3, first, second⟩)
  else
    match value + noLiterals.toNat with
    | 1 => some (first, recent)
    | 2 => some (second, ⟨second, first, third⟩)
    | 3 => some (third, ⟨third, first, second⟩)
    | _ => if first ≤ 1 then none else some (first - 1, ⟨first - 1, first, second⟩)

end RecentOffsets

/-- The states of the three tables. -/
structure SequenceStates where
  literalLength : Nat
  offset : Nat
  matchLength : Nat

/-- Three tables that are all present. -/
structure SequenceDecoder where
  literalLengths : StateTable
  offsets : StateTable
  matchLengths : StateTable

namespace SequenceDecoder

def start? (decoder : SequenceDecoder) (bits : List Bool) :
    Option (SequenceStates × List Bool) := do
  let (literalLength, bits) ← decoder.literalLengths.start? bits
  let (offset, bits) ← decoder.offsets.start? bits
  let (matchLength, bits) ← decoder.matchLengths.start? bits
  some (⟨literalLength, offset, matchLength⟩, bits)

def next? (decoder : SequenceDecoder) (states : SequenceStates) (bits : List Bool) :
    Option (SequenceStates × List Bool) := do
  let (literalLength, bits) ← decoder.literalLengths.next? states.literalLength bits
  let (matchLength, bits) ← decoder.matchLengths.next? states.matchLength bits
  let (offset, bits) ← decoder.offsets.next? states.offset bits
  some (⟨literalLength, offset, matchLength⟩, bits)

/-- The sequence that the states stand for. -/
def sequence? (decoder : SequenceDecoder) (states : SequenceStates) (recent : RecentOffsets)
    (bits : List Bool) : Option (Sequence × RecentOffsets × List Bool) := do
  let literalCode := (decoder.literalLengths.cell states.literalLength).symbol
  let offsetCode := (decoder.offsets.cell states.offset).symbol
  let matchCode := (decoder.matchLengths.cell states.matchLength).symbol
  let (value, bits) ← readNumber offsetCodes offsetCode bits
  let (length, bits) ← readNumber matchLengthCodes matchCode bits
  let (literals, bits) ← readNumber literalLengthCodes literalCode bits
  let (offset, recent) ← recent.resolve value (literalCode == 0)
  some (⟨literals, offset, length⟩, recent, bits)

/-- Reads `count` sequences, behind those `read` in reverse order, which must take up all bits. -/
def readAll (decoder : SequenceDecoder) : (count : Nat) → SequenceStates → RecentOffsets →
    List Bool → List Sequence → Option (List Sequence × RecentOffsets)
  | 0, _, recent, [], read => some (read.reverse, recent)
  | 0, _, _, _ :: _, _ => none
  | 1, states, recent, bits, read => do
    let (sequence, recent, bits) ← decoder.sequence? states recent bits
    readAll decoder 0 states recent bits (sequence :: read)
  | count + 2, states, recent, bits, read => do
    let (sequence, recent, bits) ← decoder.sequence? states recent bits
    let (states, bits) ← decoder.next? states bits
    readAll decoder (count + 1) states recent bits (sequence :: read)

end SequenceDecoder

/-- The sequences of a block, and what they leave for later blocks. -/
structure SequenceSection where
  sequences : List Sequence
  tables : SequenceTables
  recent : RecentOffsets

/-- Reads the sequences that take up the whole of `bytes`. -/
def SequenceSection.read? (tables : SequenceTables) (recent : RecentOffsets) (bytes : Bytes) :
    Option SequenceSection := do
  let (count, rest) ← readSequenceCount bytes
  if count = 0 then if rest.isEmpty then some ⟨[], tables, recent⟩ else none
  else
    match rest with
    | [] => none
    | modes :: rest =>
      let mode (shift : Nat) : Nat := modes.toNat / Nat.pow 2 shift % 4
      if mode 0 ≠ 0 then none
      else
        let (literalLengths, rest) ←
          readTable (mode 6) 36 9 literalLengthDefault tables.literalLengths rest
        let (offsets, rest) ← readTable (mode 4) 32 8 offsetDefault tables.offsets rest
        let (matchLengths, rest) ←
          readTable (mode 2) 53 9 matchLengthDefault tables.matchLengths rest
        let bits ← backwardBits? rest
        let decoder : SequenceDecoder := ⟨literalLengths, offsets, matchLengths⟩
        let (states, bits) ← decoder.start? bits
        let (sequences, recent) ← decoder.readAll count states recent bits []
        some ⟨sequences, ⟨some literalLengths, some offsets, some matchLengths⟩, recent⟩

/-- Appends `length` bytes, each a copy of the byte `offset` places back. -/
def copyMatch (offset : Nat) : (length : Nat) → Array UInt8 → Array UInt8
  | 0, out => out
  | length + 1, out => copyMatch offset length (out.push (out.getD (out.size - offset) 0))

/-- Carries the sequences out behind `out`, and last appends the literals that are left. -/
def execute : List Sequence → (literals : Bytes) → Array UInt8 → Option (Array UInt8)
  | [], literals, out => some (out ++ literals)
  | sequence :: rest, literals, out =>
    let front := literals.take sequence.literals
    let out := out ++ front
    if front.length < sequence.literals ∨ out.size < sequence.offset then none
    else execute rest (literals.drop sequence.literals) (copyMatch sequence.offset sequence.length out)

end ReplicatedLog.Zstd
