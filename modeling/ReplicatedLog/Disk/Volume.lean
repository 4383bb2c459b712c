import ReplicatedLog.Disk.Directory

namespace ReplicatedLog

namespace Topic

/-- A character that may stand in the name of one directory on any system. -/
def isNameChar (c : Char) : Bool :=
  c != '/' && c != '\\' && c != Char.ofNat 0

/-- A topic names one directory: it is not empty, refers to no directory by its place, and
    holds no separator of paths. -/
def IsValid (topic : String) : Prop :=
  topic ≠ "" ∧ topic ≠ "." ∧ topic ≠ ".." ∧
    topic.toList.all isNameChar

instance (topic : String) : Decidable (IsValid topic) :=
  by unfold IsValid; infer_instance

def validate (topic : String) : Except Fault Unit :=
  if IsValid topic then .ok () else .error (.setting (.topicName topic))

end Topic

/-- The root directory of a store. Every topic has a directory of its own below it. -/
structure Volume where
  present : Bool := false
  /-- What stands at the name of each topic, in the order of the names. -/
  places : List (String × Place) := []
  nextId : Nat := 0
  deriving DecidableEq, Repr

namespace Volume

/-- The path of a topic. -/
def directory (volume : Volume) (topic : String) : Directory :=
  { nextId := volume.nextId
    place :=
      match volume.places.lookup topic with
      | some place => place
      | none =>
        if maxNameLength < topic.utf8ByteSize then .unnameable volume.present else .missing }

/-- Gives a place to a topic, in the order of the names. -/
def insertPlace (topic : String) (place : Place) : List (String × Place) → List (String × Place)
  | [] => [(topic, place)]
  | (other, kept) :: rest =>
    if topic < other then (topic, place) :: (other, kept) :: rest
    else if topic = other then (topic, place) :: rest
    else (other, kept) :: insertPlace topic place rest

/-- Puts the directory of a topic back after work on it. -/
def setDirectory (volume : Volume) (topic : String) (dir : Directory) : Volume :=
  match dir.place with
  | .missing =>
    { volume with
      places := volume.places.filter fun entry => entry.1 ≠ topic
      nextId := dir.nextId }
  | .unnameable parent => { volume with present := volume.present || parent, nextId := dir.nextId }
  | place =>
    { present := true, places := insertPlace topic place volume.places, nextId := dir.nextId }

/-- The topics that have a directory. -/
def topics (volume : Volume) : List String :=
  volume.places.filterMap fun
    | (topic, .folder _) => some topic
    | _ => none

/-- Makes a file in the root. -/
def addFile (volume : Volume) (name : String) : Volume :=
  { volume with present := true, places := insertPlace name .file volume.places }

/-- Writes a file into the directory of a topic, which is made if need be. -/
def putFile (volume : Volume) (topic name : String) (bytes : Bytes) (now : Instant) : Volume :=
  volume.setDirectory topic ((volume.directory topic).putFile name bytes now)

end Volume

end ReplicatedLog
