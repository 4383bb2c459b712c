import ReplicatedLog.Zstd.StateTable

namespace ReplicatedLog.Zstd

/-- A code in which the next `log` bits tell the symbol and how many of them it takes. -/
structure PrefixCode where
  log : Nat
  cells : Array (UInt8 × Nat)

namespace PrefixCode

/-- The longest code word. -/
def maxLog : Nat := 12

/-- The most weights that are written down; the last one is implied. -/
def maxWeights : Nat := 255

/-- The states of a weight: a power of two, or none for weight zero. -/
def weightStates (weight : Nat) : Nat :=
  Nat.pow 2 weight / 2

/-- Two symbols in turn from two states, until the bits end within one of them. At most `left`
    more symbols are allowed. -/
def readInTurn (table : StateTable) : (left here there : Nat) → List Bool → Option (List Nat)
  | 0, _, _, _ | 1, _, _, _ => none
  | left + 1, here, there, bits =>
    let symbol := (table.cell here).symbol
    match table.next? here bits with
    | none => some [symbol, (table.cell there).symbol]
    | some (here, bits) => (readInTurn table left there here bits).map (symbol :: ·)

/-- Weights that are themselves compressed, by a table of at most 64 states. -/
def readCompressedWeights (bytes : Bytes) : Option (List Nat) := do
  let (table, rest) ← StateTable.read? 256 6 bytes
  let bits ← backwardBits? rest
  let (here, bits) ← table.start? bits
  let (there, bits) ← table.start? bits
  readInTurn table maxWeights here there bits

/-- Weights of four bits each. -/
def readPlainWeights (count : Nat) (bytes : Bytes) : List Nat :=
  (bytes.flatMap fun byte => [byte.toNat / 16, byte.toNat % 16]).take count

/-- The cells of the symbols with weight `weight`, in order. -/
def cellsOfWeight (log : Nat) (symbols : List (Nat × Nat)) (weight : Nat) : List (UInt8 × Nat) :=
  (symbols.filter (·.1 == weight)).flatMap fun (_, symbol) =>
    List.replicate (weightStates weight) (UInt8.ofNat symbol, log + 1 - weight)

/-- The code of a list of weights, to which the one is added that fills the table up. -/
def ofWeights? (weights : List Nat) : Option PrefixCode :=
  let total := (weights.map weightStates).foldr (· + ·) 0
  if total = 0 ∨ weights.any (maxLog < ·) then none
  else
    let log := Nat.log2 total + 1
    let rest := Nat.pow 2 log - total
    let last := Nat.log2 rest + 1
    let weights := weights ++ [last]
    let ones := weights.count 1
    if maxLog < log ∨ weightStates last ≠ rest ∨ ones < 2 ∨ ones % 2 = 1 then none
    else
      let symbols := weights.zipIdx
      some ⟨log, ((List.range (log + 1)).flatMap (cellsOfWeight log symbols)).toArray⟩

/-- Reads the code at the front of `bytes`, and gives the bytes behind it. -/
def read? : Bytes → Option (PrefixCode × Bytes)
  | [] => none
  | head :: rest => do
    let count := head.toNat - 127
    let size := if head.toNat < 128 then head.toNat else (count + 1) / 2
    if rest.length < size then none
    else
      let weights ←
        if head.toNat < 128 then readCompressedWeights (rest.take size)
        else some (readPlainWeights count (rest.take size))
      let code ← ofWeights? weights
      some (code, rest.drop size)

/-- Reads `count` symbols, behind those `read` in reverse order, which must take up all bits. -/
def readSymbols (code : PrefixCode) : (count : Nat) → List Bool → List UInt8 → Option (List UInt8)
  | 0, [], read => some read.reverse
  | 0, _ :: _, _ => none
  | count + 1, bits, read =>
    match code.cells[peekHigh code.log 0 bits]? with
    | none => none
    | some (symbol, length) =>
      match skipBits? length bits with
      | none => none
      | some bits => readSymbols code count bits (symbol :: read)

/-- Reads `count` symbols from one stream. -/
def decodeStream (code : PrefixCode) (count : Nat) (bytes : Bytes) : Option Bytes := do
  let bits ← backwardBits? bytes
  readSymbols code count bits []

/-- Reads `count` symbols from four streams, of which the first three tell their lengths in front
    of them, and which share the symbols evenly. -/
def decodeFourStreams (code : PrefixCode) (count : Nat) (bytes : Bytes) : Option Bytes := do
  let length (index : Nat) : Nat := Bytes.toNatLE ((bytes.drop (2 * index)).take 2)
  let share := (count + 3) / 4
  if bytes.length < 10 ∨ count < 3 * share ∨ bytes.length < 6 + length 0 + length 1 + length 2 then none
  else
    let streams := bytes.drop 6
    let first ← decodeStream code share (streams.take (length 0))
    let streams := streams.drop (length 0)
    let second ← decodeStream code share (streams.take (length 1))
    let streams := streams.drop (length 1)
    let third ← decodeStream code share (streams.take (length 2))
    let fourth ← decodeStream code (count - 3 * share) (streams.drop (length 2))
    some (first ++ second ++ third ++ fourth)

end PrefixCode

end ReplicatedLog.Zstd
