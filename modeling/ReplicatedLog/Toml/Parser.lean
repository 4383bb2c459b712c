import ReplicatedLog.Toml.Scalar

namespace ReplicatedLog.Toml

/-- How a table came to be, which decides who may add to it. -/
inductive Origin
  /-- By a header of its own. -/
  | header
  /-- By the header of a table inside it. -/
  | implied
  /-- By a key with several parts. -/
  | dotted
  deriving DecidableEq, Repr

/-- What a key stands for while a text is read. -/
inductive Node
  | value (doc : Document)
  | table (origin : Origin) (members : List (String × Node))
  /-- Tables under one header, the last one first. -/
  | tables (last : List (String × Node)) (others : List (List (String × Node)))

abbrev Members := List (String × Node)

namespace Members

/-- Replaces the node of a key, or adds it behind the others. -/
def set (key : String) (node : Node) : Members → Members
  | [] => [(key, node)]
  | (other, kept) :: rest =>
    if other = key then (other, node) :: rest else (other, kept) :: set key node rest

/-- Gives a value to a key that has none yet. A part of the key in front of the last one may
    only stand for a table made in this way. -/
def insert (doc : Document) : (path : List String) → Members → Option Members
  | [], _ => none
  | [key], members =>
    match members.lookup key with
    | some _ => none
    | none => some (members.set key (.value doc))
  | key :: rest, members =>
    match members.lookup key with
    | none => do
      let inner ← insert doc rest []
      some (members.set key (.table .dotted inner))
    | some (.table .dotted inner) => do
      let inner ← insert doc rest inner
      some (members.set key (.table .dotted inner))
    | some _ => none

/-- Changes the table at a path of headers. -/
def change (work : Members → Option Members) : (path : List String) → Members → Option Members
  | [], members => work members
  | key :: rest, members =>
    match members.lookup key with
    | none => do
      let inner ← change work rest []
      some (members.set key (.table .implied inner))
    | some (.table origin inner) => do
      let inner ← change work rest inner
      some (members.set key (.table origin inner))
    | some (.tables last others) => do
      let last ← change work rest last
      some (members.set key (.tables last others))
    | some (.value _) => none

/-- Opens the table of a header. -/
def openTable (key : String) (members : Members) : Option Members :=
  match members.lookup key with
  | none => some (members.set key (.table .header []))
  | some (.table .implied inner) => some (members.set key (.table .header inner))
  | some _ => none

/-- Opens the next table of a header that many tables share. -/
def openNext (key : String) (members : Members) : Option Members :=
  match members.lookup key with
  | none => some (members.set key (.tables [] []))
  | some (.tables last others) => some (members.set key (.tables [] (last :: others)))
  | some _ => none

end Members

mutual

def Node.toDocument : Node → Document
  | .value doc => doc
  | .table _ members => .table (membersDocument members)
  | .tables last others =>
    .list ((tablesDocument others).reverse ++ [.table (membersDocument last)])

def membersDocument : Members → List (String × Document)
  | [] => []
  | (key, node) :: rest => (key, node.toDocument) :: membersDocument rest

def tablesDocument : List Members → List Document
  | [] => []
  | members :: rest => .table (membersDocument members) :: tablesDocument rest

end

/-- Leaves out blanks, comments and ends of lines. -/
def skipFiller : (fuel : Nat) → List Char → List Char
  | 0, cs => cs
  | fuel + 1, cs =>
    let rest := skipComment (skipBlanks cs)
    match newline? rest with
    | some ((), rest) => skipFiller fuel rest
    | none => rest

mutual

/-- Reads a value. -/
def value? : (fuel : Nat) → Reader Document
  | 0, _ => none
  | fuel + 1, '[' :: cs => items? fuel [] cs
  | fuel + 1, '{' :: cs =>
    match skipBlanks cs with
    | '}' :: rest => some (.table [], rest)
    | rest => inline? fuel [] rest
  | _ + 1, cs => scalar? cs

/-- Reads the items of a list up to its end, behind those already read. -/
def items? : (fuel : Nat) → (read : List Document) → Reader Document
  | 0, _, _ => none
  | fuel + 1, read, cs =>
    match skipFiller cs.length cs with
    | ']' :: rest => some (.list read.reverse, rest)
    | rest => do
      let (item, rest) ← value? fuel rest
      match skipFiller rest.length rest with
      | ',' :: rest => items? fuel (item :: read) rest
      | ']' :: rest => some (.list (item :: read).reverse, rest)
      | _ => none

/-- Reads the members of a table on one line up to its end, behind those already read. -/
def inline? : (fuel : Nat) → (read : Members) → Reader Document
  | 0, _, _ => none
  | fuel + 1, read, cs => do
    let (key, rest) ← key? (cs.length + 1) cs
    let ((), rest) ← word? ['='] (skipBlanks rest)
    let (value, rest) ← value? fuel (skipBlanks rest)
    let read ← read.insert value key
    match skipBlanks rest with
    | ',' :: rest => inline? fuel read (skipBlanks rest)
    | '}' :: rest => some (.table (membersDocument read), rest)
    | _ => none

end

/-- What is known while a text is read: the members of the root, and the path of the table that
    takes the next key. -/
structure State where
  root : Members := []
  path : List String := []

/-- Opens the table of a header, `work` puts its last part in. -/
def State.enter (state : State) (path : List String)
    (work : String → Members → Option Members) : Option State := do
  let last ← path.getLast?
  let root ← state.root.change (work last) path.dropLast
  some { root, path }

/-- Reads a header or a key with its value. -/
def expression? (state : State) (cs : List Char) : Option (State × List Char) :=
  match cs with
  | '[' :: '[' :: rest => do
    let (path, rest) ← key? (rest.length + 1) (skipBlanks rest)
    let ((), rest) ← word? [']', ']'] (skipBlanks rest)
    let state ← state.enter path Members.openNext
    some (state, rest)
  | '[' :: rest => do
    let (path, rest) ← key? (rest.length + 1) (skipBlanks rest)
    let ((), rest) ← word? [']'] (skipBlanks rest)
    let state ← state.enter path Members.openTable
    some (state, rest)
  | _ => do
    let (key, rest) ← key? (cs.length + 1) cs
    let ((), rest) ← word? ['='] (skipBlanks rest)
    let (value, rest) ← value? (2 * rest.length + 2) (skipBlanks rest)
    let root ← state.root.change (Members.insert value key) state.path
    some ({ state with root }, rest)

/-- Reads lines up to the end of the text. -/
def lines? : (fuel : Nat) → State → List Char → Option State
  | 0, _, _ => none
  | fuel + 1, state, cs =>
    let start := skipBlanks cs
    let here := match start.head? with
      | none | some '#' | some '\n' | some '\r' => some (state, start)
      | some _ => expression? state start
    match here with
    | none => none
    | some (state, rest) =>
      match skipComment (skipBlanks rest) with
      | [] => some state
      | rest =>
        match newline? rest with
        | some ((), rest) => lines? fuel state rest
        | none => none

/-- The table that a text in TOML tells. -/
def parse? (text : String) : Option Document := do
  let cs := text.toList
  let cs := if cs.head? = some (Char.ofNat 0xFEFF) then cs.drop 1 else cs
  let state ← lines? (cs.length + 1) {} cs
  some (.table (membersDocument state.root))

end ReplicatedLog.Toml
