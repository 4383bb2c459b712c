import ReplicatedLog.Program.Fault
import ReplicatedLog.Store.Basic

namespace ReplicatedLog.Check

/-- The checksum of a topic on one side. -/
def checksum (store : Store) (topic side : String) : Except ProgramFault Checksum :=
  match store.get topic with
  | (.error fault, _) => .error (.log fault)
  | (.ok number, store) =>
    match store.stored? number with
    | none => .error (.log (.session (.logGone topic side)))
    | some stored => stored.checksum.mapError (.side topic side)

/-- The first digits of a digest. -/
def digestText (checksum : Checksum) : String :=
  Bytes.toHex (checksum.digest.take 8)

/-- What became of the comparison of one topic. -/
inductive Verdict
  | equal (checksum : Checksum)
  | different (left right : Checksum)
  | oneSided
  deriving DecidableEq, Repr

def Verdict.isEqual : Verdict → Bool
  | .equal _ => true
  | _ => false

/-- The line that tells a verdict. -/
def Verdict.line (topic : String) : Verdict → String
  | .equal sum =>
    s!"{topic}: ok {sum.entries} entries, {sum.bytes} bytes, sha512 {digestText sum}"
  | .different left right =>
    s!"{topic}: MISMATCH left {left.entries} entries sha512 {digestText left} / "
      ++ s!"right {right.entries} entries sha512 {digestText right}"
  | .oneSided => s!"{topic}: present on one side only"

/-- Compares one topic. -/
def verdict (left right : Store) (topic : String) : Except ProgramFault Verdict := do
  if left.volume.topics.contains topic && right.volume.topics.contains topic then
    let a ← checksum left topic "left"
    let b ← checksum right topic "right"
    .ok (if a = b then .equal a else .different a b)
  else .ok .oneSided

/-- The topics of both sides, in order. -/
def topics (left right : Store) : List String :=
  let both := left.volume.topics ++ right.volume.topics
  both.eraseDups.mergeSort (· ≤ ·)

/-- Compares topics up to the first fault. -/
def verdicts (left right : Store) :
    List String → List (String × Verdict) × Except ProgramFault Unit
  | [] => ([], .ok ())
  | topic :: rest =>
    match verdict left right topic with
    | .error fault => ([], .error fault)
    | .ok found =>
      let (others, outcome) := verdicts left right rest
      ((topic, found) :: others, outcome)

/-- Compares all topics. Gives the lines to be printed and tells whether all are equal. -/
def run (left right : Store) : List String × Except ProgramFault Unit :=
  let (found, outcome) := verdicts left right (topics left right)
  let count := (found.filter fun entry => !entry.2.isEqual).length
  let outcome := outcome.bind fun () =>
    if count = 0 then .ok () else .error (.topicsDiffer count)
  (found.map fun (topic, verdict) => verdict.line topic, outcome)

end ReplicatedLog.Check
