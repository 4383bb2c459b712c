import ReplicatedLog.Zstd.Bits

namespace ReplicatedLog.Zstd

/-- What a state of a table decoder stands for: its symbol, and the next state as a base to which
    the next few bits are added. -/
structure StateCell where
  symbol : Nat
  bits : Nat
  base : Nat
  deriving Inhabited

/-- A table of `2 ^ log` states. -/
structure StateTable where
  log : Nat
  cells : Array StateCell

namespace StateTable

def cell (table : StateTable) (state : Nat) : StateCell :=
  table.cells.getD state default

/-- A table with one state, which takes no bits. -/
def single (symbol : Nat) : StateTable :=
  ⟨0, #[⟨symbol, 0, 0⟩]⟩

/-- The share of each symbol in the table. A symbol rarer than one state has share -1. -/
abbrev Shares := List Int

/-- The states a symbol takes up. -/
def states (share : Int) : Nat :=
  if share < 0 then 1 else share.toNat

/-- The symbol of every state: rare symbols at the end, the first of them last, and all others
    spread over the rest by a fixed stride. -/
def spread (log : Nat) (shares : Shares) : Array Nat :=
  let size := Nat.pow 2 log
  let numbered := shares.zipIdx
  let rare := (numbered.filter (·.1 < 0)).map (·.2)
  let free := size - rare.length
  let stride := size / 2 + size / 8 + 3
  let places := ((List.range size).map fun step => step * stride % size).filter (· < free)
  let symbols := numbered.flatMap fun (share, symbol) => List.replicate share.toNat symbol
  let filled := (places.zip symbols).foldl (fun cells (place, symbol) => cells.setIfInBounds place symbol)
    (Array.replicate size 0)
  rare.zipIdx.foldl (fun cells (symbol, rank) => cells.setIfInBounds (size - 1 - rank) symbol) filled

/-- Gives each state of a symbol, in order, its share of the symbol's successors. -/
def link (log : Nat) (symbols : List Nat) (next : Array Nat) (cells : Array StateCell) :
    Array StateCell :=
  match symbols with
  | [] => cells
  | symbol :: rest =>
    let rank := next.getD symbol 1
    let bits := log - Nat.log2 rank
    link log rest (next.setIfInBounds symbol (rank + 1))
      (cells.push ⟨symbol, bits, rank * Nat.pow 2 bits - Nat.pow 2 log⟩)

def ofShares (log : Nat) (shares : Shares) : StateTable :=
  ⟨log, link log (spread log shares).toList (shares.map states).toArray #[]⟩

/-- The number of zero shares behind a zero share: two-bit counts, of which a 3 announces one
    more. At most `left` symbols are left. -/
def zeroRun (left : Nat) (stream : ForwardBits) : Option (Nat × ForwardBits) :=
  let count := stream.peek 2
  let stream := stream.skip 2
  if count < 3 then some (count, stream)
  else if left < 3 then none
  else (zeroRun (left - 3) stream).map fun (zeros, stream) => (zeros + 3, stream)
termination_by left
decreasing_by omega

/-- One share, when `remaining - 1` states are not given away yet. The lower numbers take one bit
    less. -/
def readShare (remaining : Nat) (stream : ForwardBits) : Int × ForwardBits :=
  let width := Nat.log2 remaining
  let threshold := Nat.pow 2 width
  let short := 2 * threshold - 1 - remaining
  let low := stream.peek width
  if low < short then ((low : Int) - 1, stream.skip width)
  else
    let value := stream.peek (width + 1)
    let value := if value < threshold then value else value - short
    ((value : Int) - 1, stream.skip (width + 1))

/-- The shares of at most `left` symbols, until all states are given away. -/
def readShares (left remaining : Nat) (afterZero : Bool) (stream : ForwardBits) :
    Option (Shares × ForwardBits) :=
  if remaining ≤ 1 then if remaining = 1 then some ([], stream) else none
  else do
    let (zeros, stream) ← if afterZero then zeroRun left stream else some (0, stream)
    if left ≤ zeros then none
    else
      let (share, stream) := readShare remaining stream
      let (shares, stream) ←
        readShares (left - zeros - 1) (remaining - states share) (share == 0) stream
      some (List.replicate zeros 0 ++ share :: shares, stream)
termination_by left
decreasing_by omega

/-- Reads the table of at most `symbols` symbols and `2 ^ maxLog` states at the front of `bytes`,
    and gives the bytes behind it. -/
def read? (symbols maxLog : Nat) (bytes : Bytes) : Option (StateTable × Bytes) := do
  let stream := ForwardBits.ofBytes bytes
  let log := stream.peek 4 + 5
  let (shares, stream) ← readShares symbols (Nat.pow 2 log + 1) false (stream.skip 4)
  if maxLog < log ∨ bytes.length < stream.usedBytes then none
  else some (ofShares log shares, bytes.drop stream.usedBytes)

/-- The first state. -/
def start? (table : StateTable) (bits : List Bool) : Option (Nat × List Bool) :=
  takeHigh table.log 0 bits

/-- The state after `state`. -/
def next? (table : StateTable) (state : Nat) (bits : List Bool) : Option (Nat × List Bool) :=
  let cell := table.cell state
  (takeHigh cell.bits 0 bits).map fun (value, bits) => (cell.base + value, bits)

end StateTable

end ReplicatedLog.Zstd
