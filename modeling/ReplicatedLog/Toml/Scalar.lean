import ReplicatedLog.Calendar
import ReplicatedLog.Settings.Document
import ReplicatedLog.Text.Decimal

namespace ReplicatedLog.Toml

/-- A reader of some kind of value. It takes the characters from where it stands, and gives what it
    read with those left. -/
abbrev Reader (α : Type) := List Char → Option (α × List Char)

/-- Reads a given text. -/
def word? : List Char → Reader Unit
  | [], cs => some ((), cs)
  | expected :: more, c :: cs => if c = expected then word? more cs else none
  | _ :: _, [] => none

def skipBlanks (cs : List Char) : List Char :=
  cs.dropWhile fun c => c = ' ' ∨ c = '\t'

/-- Reads the end of a line. -/
def newline? : Reader Unit
  | '\n' :: cs | '\r' :: '\n' :: cs => some ((), cs)
  | _ => none

/-- Characters that stand for themselves in a comment. -/
def isCommentChar (c : Char) : Bool :=
  c = '\t' ∨ 0x20 ≤ c.toNat

/-- Characters that stand for themselves in a string. -/
def isStringChar (c : Char) : Bool :=
  c = '\t' ∨ (0x20 ≤ c.toNat ∧ c.toNat ≠ 0x7F)

/-- Leaves out a comment, if there is one. -/
def skipComment : List Char → List Char
  | '#' :: cs => cs.dropWhile isCommentChar
  | cs => cs

/-- The character of a code point written in `count` hexadecimal digits. -/
def codePoint? (count : Nat) : Reader Char := fun cs =>
  let digits := cs.take count
  let value := digits.foldl (fun value c =>
    value * 16 + (SocketAddress.digitValue? 16 c).getD 0) 0
  if digits.length = count ∧ digits.all fun c => (SocketAddress.digitValue? 16 c).isSome then
    if value.isValidChar then some (Char.ofNat value, cs.drop count) else none
  else none

/-- Reads what follows a backslash. -/
def escape? : Reader Char
  | 'b' :: cs => some ('\x08', cs)
  | 't' :: cs => some ('\t', cs)
  | 'n' :: cs => some ('\n', cs)
  | 'f' :: cs => some ('\x0c', cs)
  | 'r' :: cs => some ('\r', cs)
  | '"' :: cs => some ('"', cs)
  | '\\' :: cs => some ('\\', cs)
  | 'u' :: cs => codePoint? 4 cs
  | 'U' :: cs => codePoint? 8 cs
  | _ => none

/-- Leaves out blanks and ends of lines. -/
def skipSpace : (fuel : Nat) → List Char → List Char
  | 0, cs => cs
  | fuel + 1, cs =>
    match newline? (skipBlanks cs) with
    | some ((), rest) => skipSpace fuel rest
    | none => skipBlanks cs

/-- How a string is quoted. -/
structure Quoting where
  quote : Char
  escapes : Bool
  multiline : Bool

/-- Reads a string behind its opening quotes. Three quotes end one of several lines; one or two
    more in front of them belong to it. -/
def stringBody? (quoting : Quoting) : (fuel : Nat) → (read : List Char) → Reader String
  | 0, _, _ => none
  | _ + 1, _, [] => none
  | fuel + 1, read, c :: cs =>
    if c = quoting.quote then
      if !quoting.multiline then some (String.ofList read.reverse, cs)
      else
        let quotes := (c :: cs).takeWhile (· = c)
        let rest := (c :: cs).drop quotes.length
        if quotes.length < 3 then stringBody? quoting fuel (quotes ++ read) rest
        else
          let own := quotes.drop 3
          if 2 < own.length then none else some (String.ofList (own ++ read).reverse, rest)
    else if quoting.escapes ∧ c = '\\' then
      match escape? cs with
      | some (c, rest) => stringBody? quoting fuel (c :: read) rest
      | none =>
        match newline? (skipBlanks cs) with
        | some ((), rest) =>
          if quoting.multiline then stringBody? quoting fuel read (skipSpace fuel rest) else none
        | none => none
    else
      match newline? (c :: cs) with
      | some ((), rest) =>
        if quoting.multiline then stringBody? quoting fuel ('\n' :: read) rest else none
      | none => if isStringChar c then stringBody? quoting fuel (c :: read) cs else none

/-- Reads a string of one line. -/
def line? : Reader String
  | '"' :: cs => stringBody? ⟨'"', true, false⟩ (cs.length + 1) [] cs
  | '\'' :: cs => stringBody? ⟨'\'', false, false⟩ (cs.length + 1) [] cs
  | _ => none

/-- Reads a string. -/
def string? (cs : List Char) : Option (String × List Char) :=
  let paragraph := fun (quote : Char) (escapes : Bool) (cs : List Char) =>
    let cs := match newline? cs with
      | some ((), rest) => rest
      | none => cs
    stringBody? ⟨quote, escapes, true⟩ (cs.length + 1) [] cs
  match cs with
  | '"' :: '"' :: '"' :: rest => paragraph '"' true rest
  | '\'' :: '\'' :: '\'' :: rest => paragraph '\'' false rest
  | _ => line? cs

def isBareKeyChar (c : Char) : Bool :=
  c.isAlphanum ∨ c = '_' ∨ c = '-'

/-- Reads one part of a key. -/
def keyPart? (cs : List Char) : Option (String × List Char) :=
  match cs.takeWhile isBareKeyChar with
  | [] => line? cs
  | bare => some (String.ofList bare, cs.drop bare.length)

/-- Reads the parts of a key between points. -/
def key? : (fuel : Nat) → Reader (List String)
  | 0, _ => none
  | fuel + 1, cs => do
    let (part, rest) ← keyPart? cs
    match skipBlanks rest with
    | '.' :: more => do
      let (parts, rest) ← key? fuel (skipBlanks more)
      some (part :: parts, rest)
    | _ => some ([part], rest)

/-- Reads digits of a base, with single underscores between them. -/
def digits? (base : Nat) (cs : List Char) : Option (List Char × List Char) :=
  let isDigit := fun c : Char => (SocketAddress.digitValue? base c).isSome
  let text := cs.takeWhile fun c => isDigit c ∨ c = '_'
  let groups := text.splitOn '_'
  if groups.all fun group => !group.isEmpty then
    some (text.filter isDigit, cs.drop text.length)
  else none

def valueOf (base : Nat) (digits : List Char) : Nat :=
  digits.foldl (fun value c => value * base + (SocketAddress.digitValue? base c).getD 0) 0

/-- A number as long as it has 64 bits with its sign. -/
def integer (value : Int) : Option Document :=
  if -0x8000000000000000 ≤ value ∧ value < 0x8000000000000000 then some (.integer value) else none

/-- Reads a number in a base other than ten. -/
def prefixed? (base : Nat) : Reader Document := fun cs => do
  let (digits, rest) ← digits? base cs
  let value ← integer (valueOf base digits)
  some (value, rest)

/-- Reads the fraction of a number, if it has one. -/
def fraction? : List Char → Option (List Char × List Char)
  | '.' :: cs => digits? 10 cs
  | cs => some ([], cs)

/-- Reads the power of ten of a number, if it has one. -/
def exponent? : List Char → Option (Option Int × List Char)
  | [] => some (none, [])
  | c :: cs =>
    if c = 'e' ∨ c = 'E' then do
      let (negative, cs) := match cs with
        | '-' :: rest => (true, rest)
        | '+' :: rest => (false, rest)
        | _ => (false, cs)
      let (digits, rest) ← digits? 10 cs
      let size : Int := valueOf 10 digits
      some (some (if negative then -size else size), rest)
    else some (none, c :: cs)

/-- The number of whole digits, digits of a fraction and a power of ten. -/
def floatOf (whole fraction : List Char) (exponent : Int) : Float :=
  let scale := exponent - fraction.length
  Float.ofScientific (valueOf 10 (whole ++ fraction)) (scale < 0) scale.natAbs

/-- Reads a decimal number behind its sign. -/
def decimal? (negative : Bool) : Reader Document := fun cs => do
  let (whole, rest) ← digits? 10 cs
  if 1 < whole.length ∧ whole.head? = some '0' then none
  else
    let (fraction, rest) ← fraction? rest
    let (exponent, rest) ← exponent? rest
    if fraction.isEmpty ∧ exponent.isNone then
      let value : Int := valueOf 10 whole
      let value ← integer (if negative then -value else value)
      some (value, rest)
    else
      let value := floatOf whole fraction (exponent.getD 0)
      if value.isInf then none else some (.float (if negative then -value else value), rest)

/-- Reads a number that is none or has no bound. -/
def special? (negative : Bool) (cs : List Char) : Option (Document × List Char) :=
  let infinity : Float := 1.0 / 0.0
  match word? ['i', 'n', 'f'] cs with
  | some ((), rest) => some (.float (if negative then -infinity else infinity), rest)
  | none => do
    let ((), rest) ← word? ['n', 'a', 'n'] cs
    some (.float (0.0 / 0.0), rest)

def number? (cs : List Char) : Option (Document × List Char) :=
  match cs with
  | '0' :: 'x' :: rest => prefixed? 16 rest
  | '0' :: 'o' :: rest => prefixed? 8 rest
  | '0' :: 'b' :: rest => prefixed? 2 rest
  | '-' :: rest => special? true rest <|> decimal? true rest
  | '+' :: rest => special? false rest <|> decimal? false rest
  | _ => special? false cs <|> decimal? false cs

/-- Reads exactly `count` digits of a number between two bounds. -/
def field? (count low high : Nat) : Reader Nat := fun cs =>
  let digits := cs.take count
  let value := valueOf 10 digits
  if digits.length = count ∧ digits.all Char.isDigit ∧ low ≤ value ∧ value ≤ high then
    some (value, cs.drop count)
  else none

/-- Reads a day of the calendar. -/
def date? : Reader Unit := fun cs => do
  let (year, rest) ← field? 4 0 9999 cs
  let ((), rest) ← word? ['-'] rest
  let (month, rest) ← field? 2 1 12 rest
  let ((), rest) ← word? ['-'] rest
  let (_, rest) ← field? 2 1 (Date.daysInMonth year month) rest
  some ((), rest)

/-- Reads a time of day. -/
def clock? : Reader Unit := fun cs => do
  let (_, rest) ← field? 2 0 23 cs
  let ((), rest) ← word? [':'] rest
  let (_, rest) ← field? 2 0 59 rest
  let ((), rest) ← word? [':'] rest
  let (_, rest) ← field? 2 0 60 rest
  match rest with
  | '.' :: c :: more => if c.isDigit then some ((), more.dropWhile Char.isDigit) else none
  | '.' :: [] => none
  | _ => some ((), rest)

/-- Reads the distance from universal time, if there is one. -/
def zone? : Reader Unit := fun cs =>
  match cs with
  | c :: rest =>
    if c = 'Z' ∨ c = 'z' then some ((), rest)
    else if c = '+' ∨ c = '-' then do
      let (_, rest) ← field? 2 0 23 rest
      let ((), rest) ← word? [':'] rest
      let (_, rest) ← field? 2 0 59 rest
      some ((), rest)
    else some ((), cs)
  | [] => some ((), [])

/-- Reads a point in time: a date, a time of day, or both. Settings have no use for its value. -/
def time? (cs : List Char) : Option (Document × List Char) :=
  match date? cs with
  | some ((), rest) =>
    match rest with
    | c :: more =>
      let both := if c = 'T' ∨ c = 't' ∨ c = ' ' then clock? more else none
      match both with
      | some ((), rest) => do
        let ((), rest) ← zone? rest
        some (.null, rest)
      | none => if c = 'T' ∨ c = 't' then none else some (.null, rest)
    | [] => some (.null, [])
  | none => do
    let ((), rest) ← clock? cs
    some (.null, rest)

def boolean? (cs : List Char) : Option (Document × List Char) :=
  match word? "true".toList cs with
  | some ((), rest) => some (.boolean true, rest)
  | none => do
    let ((), rest) ← word? "false".toList cs
    some (.boolean false, rest)

/-- Reads any scalar. -/
def scalar? (cs : List Char) : Option (Document × List Char) :=
  match cs.head? with
  | some '"' | some '\'' => (string? cs).map fun (text, rest) => (.text text, rest)
  | some 't' | some 'f' => boolean? cs
  | _ => time? cs <|> number? cs

end ReplicatedLog.Toml
