import ReplicatedLog.Segment.Name

namespace ReplicatedLog

/-- A file of a log: its name, and the offset in the log of its first byte. -/
structure Segment where
  name : String
  offset : Nat
  deriving DecidableEq, Repr, Inhabited

namespace Segment

/-- The segment of a name. Whether its creation time exists in the calendar is not looked at. -/
def ofName (name : String) : Except Fault Segment := do
  let offset ← SegmentName.offset name
  .ok ⟨name, offset⟩

/-- The last part of a path, without trailing separators and references to the same directory;
    empty where the path ends in none. -/
def fileName (path : String) : String :=
  let parts := (path.splitOn "/").filter fun part => part ≠ "" ∧ part ≠ "."
  match parts.getLast? with
  | none | some ".." => ""
  | some part => part

/-- The segment at a path. -/
def ofPath (path : String) : Except Fault Segment :=
  ofName (fileName path)

def created (segment : Segment) : Except Fault Instant :=
  SegmentName.created segment.name

end Segment

end ReplicatedLog
