import ReplicatedLog.Disk.Directory
import ReplicatedLog.Text.Decimal
import ReplicatedLog.Text.Utf8

namespace ReplicatedLog.Checkpoint

/-- The file of a topic. It holds the offset up to which the topic is replicated, in decimal. -/
def fileName (topic : String) : String :=
  topic ++ ".offset"

/-- The file that is written before it takes the place of the one of the topic. -/
def draftName (topic : String) : String :=
  if topic = "" then ".offset.offset.tmp" else topic ++ ".offset.tmp"

/-- The white space of Unicode. -/
def isBlank (c : Char) : Bool :=
  let n := c.toNat
  (9 ≤ n ∧ n ≤ 13) ∨ n = 32 ∨ n = 0x85 ∨ n = 0xA0 ∨ n = 0x1680 ∨ (0x2000 ≤ n ∧ n ≤ 0x200A)
    ∨ n = 0x2028 ∨ n = 0x2029 ∨ n = 0x202F ∨ n = 0x205F ∨ n = 0x3000

/-- The characters without the blank ones at both ends. -/
def trim (cs : List Char) : List Char :=
  ((cs.dropWhile isBlank).reverse.dropWhile isBlank).reverse

/-- Whether a topic would lie in a directory below. -/
def isNested (topic : String) : Bool :=
  topic.toList.contains '/'

/-- The offset stored for a topic, if there is one. -/
def load (dir : Directory) (topic : String) : Except Fault (Option Nat) :=
  if isNested topic then .ok none
  else
    match Directory.absent (dir.file (fileName topic)) with
    | .error fault => .error (.io fault)
    | .ok none => .ok none
    | .ok (some file) =>
      match Utf8.decode? file.bytes with
      | none => .error (.io .invalidUtf8)
      | some text =>
        match Decimal.parse (trim text.toList) with
        | .ok offset => .ok (some offset)
        | .error cause => .error (.corruption (.storedOffset topic text cause))

/-- Writes the offset of a topic to a draft and puts that in place. -/
def replace (dir : Directory) (topic : String) (offset : Nat) (now : Instant) :
    Except IoFault Directory := do
  if isNested topic then .error .notFound
  let dir ← dir.write (draftName topic) (Utf8.encode (toString offset)) now
  dir.rename (draftName topic) (fileName topic)

/-- Stores the offset of a topic. -/
def store (dir : Directory) (topic : String) (offset : Nat) (now : Instant) :
    Except Fault Unit × Directory :=
  match dir.make with
  | (.error fault, dir) => (.error (.io fault), dir)
  | (.ok (), dir) =>
    match replace dir topic offset now with
    | .error fault => (.error (.io fault), dir)
    | .ok dir => (.ok (), dir)

end ReplicatedLog.Checkpoint
