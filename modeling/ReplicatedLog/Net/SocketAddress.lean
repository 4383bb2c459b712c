namespace ReplicatedLog

/-- The address of a port of a host. -/
inductive SocketAddress
  /-- Four octets and a port. -/
  | v4 (octets : List Nat) (port : Nat)
  /-- Eight groups of sixteen bits, the zone they hold in, and a port. -/
  | v6 (groups : List Nat) (zone port : Nat)
  deriving DecidableEq, Repr

namespace SocketAddress

/-- The value of a digit in bases up to 16. -/
def digitValue? (base : Nat) (c : Char) : Option Nat :=
  let value :=
    if c.isDigit then some (c.toNat - 48)
    else if 'a' ≤ c ∧ c ≤ 'f' then some (c.toNat - 87)
    else if 'A' ≤ c ∧ c ≤ 'F' then some (c.toNat - 55)
    else none
  value.filter (· < base)

/-- Reads as many digits as there are, at most `limit`, of a number below `bound`. -/
def number? (base bound : Nat) (limit : Option Nat) (leadingZeros : Bool) (cs : List Char) :
    Option (Nat × List Char) :=
  let digits := cs.takeWhile fun c => (digitValue? base c).isSome
  let value := digits.foldl (fun value c => value * base + (digitValue? base c).getD 0) 0
  if digits.isEmpty || (limit.any (· < digits.length)) || bound ≤ value
      || (!leadingZeros && digits.head? = some '0' && 1 < digits.length) then none
  else some (value, cs.drop digits.length)

/-- Reads one given character. -/
def char? (expected : Char) : List Char → Option (List Char)
  | c :: rest => if c = expected then some rest else none
  | [] => none

/-- Reads octets with points between them. -/
def octets? : (count : Nat) → List Char → Option (List Nat × List Char)
  | 0, cs => some ([], cs)
  | count + 1, cs => do
    let (octet, rest) ← number? 10 256 (some 3) false cs
    let rest ← if count = 0 then some rest else char? '.' rest
    let (octets, rest) ← octets? count rest
    some (octet :: octets, rest)

/-- Reads at most `room` groups with colons between them; the last two may be written as four
    octets. Tells whether they were. -/
def groups : (room : Nat) → (first : Bool) → List Char → List Nat × Bool × List Char
  | 0, _, cs => ([], false, cs)
  | room + 1, first, cs =>
    let start := if first then some cs else char? ':' cs
    let octets := if room = 0 then none else start.bind (octets? 4)
    match octets with
    | some ([a, b, c, d], rest) => ([a * 256 + b, c * 256 + d], true, rest)
    | _ =>
      match start.bind (number? 16 65536 (some 4) true) with
      | none => ([], false, cs)
      | some (group, rest) =>
        let (more, mixed, rest) := groups room false rest
        (group :: more, mixed, rest)

/-- Reads eight groups, a row of zeros among them possibly left out. -/
def v6Groups? (cs : List Char) : Option (List Nat × List Char) :=
  let (head, mixed, rest) := groups 8 true cs
  if head.length = 8 then some (head, rest)
  else if mixed then none
  else do
    let rest ← char? ':' rest
    let rest ← char? ':' rest
    let (tail, _, rest) := groups (7 - head.length) true rest
    some (head ++ List.replicate (8 - head.length - tail.length) 0 ++ tail, rest)

/-- Reads a colon and a port up to the end. -/
def port? (cs : List Char) : Option Nat := do
  let rest ← char? ':' cs
  let (port, rest) ← number? 10 65536 none true rest
  if rest.isEmpty then some port else none

def parseV4? (cs : List Char) : Option SocketAddress := do
  let (octets, rest) ← octets? 4 cs
  let port ← port? rest
  some (v4 octets port)

def parseV6? (cs : List Char) : Option SocketAddress := do
  let rest ← char? '[' cs
  let (groups, rest) ← v6Groups? rest
  let (zone, rest) ←
    match char? '%' rest with
    | some rest => number? 10 0x100000000 none true rest
    | none => some (0, rest)
  let rest ← char? ']' rest
  let port ← port? rest
  some (v6 groups zone port)

/-- Reads an address written as numbers. -/
def parse? (text : String) : Option SocketAddress :=
  parseV4? text.toList <|> parseV6? text.toList

def octetsText (octets : List Nat) : String :=
  ".".intercalate (octets.map toString)

def groupText (group : Nat) : String :=
  String.ofList (Nat.toDigits 16 group)

/-- The first of the longest rows of zeros: where it starts, and its length. -/
def zeroRun (groups : List Nat) : Nat × Nat :=
  (List.range groups.length).foldl (fun best start =>
    let length := ((groups.drop start).takeWhile (· = 0)).length
    if best.2 < length then (start, length) else best) (0, 0)

/-- Groups in their short form. A row of zeros is left out; octets stand for the last two groups
    of an address that maps one of four octets. -/
def groupsText (groups : List Nat) : String :=
  let row := fun part : List Nat => ":".intercalate (part.map groupText)
  match groups with
  | [0, 0, 0, 0, 0, 65535, high, low] =>
    "::ffff:" ++ octetsText [high / 256, high % 256, low / 256, low % 256]
  | _ =>
    let (start, length) := zeroRun groups
    if length ≤ 1 then row groups
    else row (groups.take start) ++ "::" ++ row (groups.drop (start + length))

/-- The text of an address in its shortest form. -/
def render : SocketAddress → String
  | v4 octets port => octetsText octets ++ ":" ++ toString port
  | v6 groups zone port =>
    let zoneText := if zone = 0 then "" else "%" ++ toString zone
    "[" ++ groupsText groups ++ zoneText ++ "]:" ++ toString port

end SocketAddress

end ReplicatedLog
