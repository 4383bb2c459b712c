import ReplicatedLog.Log.Cursor

namespace ReplicatedLog

/-- Who is told of bytes added to a log. -/
inductive Listener
  | observer (name : String)
  | replicator (name : String)
  deriving DecidableEq, Repr

/-- A cursor with an identity of its own in its log, and the name its owner gave it. -/
structure Reader where
  id : Nat
  name : String
  cursor : Cursor
  deriving DecidableEq, Repr

/-- The file open for appending: the name it was opened under, and its identity. -/
structure OpenFile where
  name : String
  file : Nat
  deriving DecidableEq, Repr

/-- What is known of the log of one topic. -/
structure TopicLog where
  topic : String
  /-- The segments in the order of their offsets; bytes are added to the last one. -/
  segments : List Segment := []
  /-- The number of bytes ever added. -/
  maxOffset : Nat := 0
  readers : List Reader := []
  /-- Readers that were unregistered. They stay usable but are told of nothing. -/
  former : List Reader := []
  nextReader : Nat := 0
  listeners : List (Nat × Listener) := []
  nextListener : Nat := 1
  active : Option OpenFile := none
  deriving DecidableEq, Repr

namespace TopicLog

/-- Where the oldest segment starts; without segments, the end of the log. -/
def firstOffset (log : TopicLog) : Nat :=
  (log.segments.head?.map (·.offset)).getD log.maxOffset

/-- The least offset still needed by a reader; without readers, the end of the log. -/
def gate (log : TopicLog) : Nat :=
  ((log.readers.map (·.cursor.offset)).min?).getD log.maxOffset

/-- Applies a change to the cursors of all registered readers. -/
def mapCursors (log : TopicLog) (change : Cursor → Cursor) : TopicLog :=
  { log with readers := log.readers.map fun reader =>
      { reader with cursor := change reader.cursor } }

/-- Adds a segment behind the others and tells the readers. -/
def addSegment (log : TopicLog) (segment : Segment) : TopicLog :=
  { log.mapCursors (Cursor.addSegment segment) with segments := log.segments ++ [segment] }

/-- Counts bytes added to the last segment and tells the readers. -/
def addBytes (log : TopicLog) (length : Nat) : TopicLog :=
  { log.mapCursors (Cursor.addBytes length) with maxOffset := log.maxOffset + length }

/-- Registers a reader at `offset` and tells its identity. -/
def addReader (log : TopicLog) (name : String) (offset : Nat) : Except Fault (Nat × TopicLog) := do
  let cursor ← Cursor.place log.segments log.maxOffset offset
  .ok (log.nextReader,
    { log with
      readers := log.readers ++ [⟨log.nextReader, name, cursor⟩], nextReader := log.nextReader + 1 })

def hasReader (log : TopicLog) (id : Nat) : Bool :=
  log.readers.any fun reader => reader.id = id

/-- Unregisters a reader. -/
def removeReader (log : TopicLog) (id : Nat) : TopicLog :=
  { log with
    readers := log.readers.filter fun reader => reader.id ≠ id
    former := log.former ++ log.readers.filter fun reader => reader.id = id }

/-- A reader, registered or not. -/
def reader? (log : TopicLog) (id : Nat) : Option Reader :=
  (log.readers ++ log.former).find? fun reader => reader.id = id

/-- Gives a reader, registered or not, another cursor. -/
def setCursor (log : TopicLog) (id : Nat) (cursor : Cursor) : TopicLog :=
  let change := fun reader : Reader => if reader.id = id then { reader with cursor } else reader
  { log with readers := log.readers.map change, former := log.former.map change }

/-- Registers a listener and tells its number. -/
def addListener (log : TopicLog) (listener : Listener) : Nat × TopicLog :=
  (log.nextListener,
    { log with
      listeners := log.listeners ++ [(log.nextListener, listener)]
      nextListener := log.nextListener + 1 })

def hasListener (log : TopicLog) (number : Nat) : Bool :=
  log.listeners.any fun entry => entry.1 = number

def removeListener (log : TopicLog) (number : Nat) : TopicLog :=
  { log with listeners := log.listeners.filter fun entry => entry.1 ≠ number }

/-- Unregisters all readers and listeners and closes the open file. -/
def close (log : TopicLog) : TopicLog :=
  { log with readers := [], former := log.former ++ log.readers, listeners := [], active := none }

end TopicLog

/-- A log together with the directory of its files. -/
structure StoredLog where
  log : TopicLog
  dir : Directory
  deriving DecidableEq, Repr

/-- Works on the cursor of a reader. -/
def StoredLog.onReader {α : Type} (stored : StoredLog) (id : Nat)
    (work : String → Directory → Cursor → Except Fault α × Cursor) :
    Except Fault α × StoredLog :=
  match stored.log.reader? id with
  | none => (.error (.session (.logGone "" "")), stored)
  | some reader =>
    let (outcome, cursor) := work stored.log.topic stored.dir reader.cursor
    (outcome, { stored with log := stored.log.setCursor id cursor })

end ReplicatedLog
