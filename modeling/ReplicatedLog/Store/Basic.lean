import ReplicatedLog.Disk.Volume
import ReplicatedLog.Log.Append
import ReplicatedLog.Log.Contents
import ReplicatedLog.Log.Retention

namespace ReplicatedLog

/-- What a store tells those who listen. -/
inductive Event
  | opened (topic : String) (maxOffset : Nat)
  | closed (topic : String) (maxOffset : Nat)
  | appended (listener : Listener) (topic : String) (maxOffset : Nat)
  deriving DecidableEq, Repr

/-- A reader of a store: the number of its log, and its identity there. -/
structure Handle where
  log : Nat
  reader : Nat
  deriving DecidableEq, Repr

/-- All logs below one root directory. A log keeps its number when its topic is forgotten, as
    readers of it may be left. -/
structure Store where
  volume : Volume := {}
  /-- Every log ever opened, by number. -/
  logs : List TopicLog := []
  /-- The numbers of the logs of the open topics. -/
  catalog : List (String × Nat) := []
  /-- The numbers of logs that someone besides the catalog keeps, once for each of them. -/
  kept : List Nat := []
  /-- Everything told so far. -/
  events : List Event := []
  deriving DecidableEq, Repr

namespace Store

/-- A log with the directory of its topic. -/
def stored? (store : Store) (number : Nat) : Option StoredLog :=
  store.logs[number]?.map fun log => ⟨log, store.volume.directory log.topic⟩

def setLog (store : Store) (number : Nat) (log : TopicLog) : Store :=
  { store with logs := store.logs.set number log }

/-- Puts a log and its directory back after work on them. -/
def setStored (store : Store) (number : Nat) (stored : StoredLog) : Store :=
  { store.setLog number stored.log with
    volume := store.volume.setDirectory stored.log.topic stored.dir }

/-- Works on the directory of a topic behind the back of its log. -/
def onDirectory {α : Type} (store : Store) (topic : String) (work : Directory → α × Directory) :
    α × Store :=
  let (outcome, dir) := work (store.volume.directory topic)
  (outcome, { store with volume := store.volume.setDirectory topic dir })

def tell (store : Store) (event : Event) : Store :=
  { store with events := store.events ++ [event] }

/-- Tells the listeners of a log where it ends now. -/
def tellAppended (store : Store) (log : TopicLog) : Store :=
  { store with
    events := store.events ++
      log.listeners.map fun entry => .appended entry.2 log.topic log.maxOffset }

/-- The number of the log of an open topic. -/
def peek? (store : Store) (topic : String) : Option Nat :=
  store.catalog.lookup topic

/-- The number of the log of a topic, which is opened unless it is open. -/
def get (store : Store) (topic : String) : Except Fault Nat × Store :=
  match store.peek? topic with
  | some number => (.ok number, store)
  | none =>
    match Topic.validate topic, StoredLog.ofDirectory topic (store.volume.directory topic) with
    | .error fault, _ | .ok (), .error fault => (.error fault, store)
    | .ok (), .ok stored =>
      let number := store.logs.length
      let store := { store with
        logs := store.logs ++ [stored.log], catalog := store.catalog ++ [(topic, number)] }
      (.ok number, store.tell (.opened topic stored.log.maxOffset))

/-- Forgets an open topic, with its readers and listeners. Tells the number of its log. -/
def remove (store : Store) (topic : String) : Option Nat × Store :=
  match store.peek? topic with
  | none => (none, store)
  | some number =>
    match store.logs[number]? with
    | none => (none, store)
    | some log =>
      let store := store.setLog number log.close
      let store := { store with catalog := store.catalog.filter fun entry => entry.1 ≠ topic }
      (some number, store.tell (.closed topic log.maxOffset))

/-- Works on a log and its directory. -/
def onLog {α : Type} (store : Store) (number : Nat)
    (work : StoredLog → Except Fault α × StoredLog) : Except Fault α × Store :=
  match store.stored? number with
  | none => (.error (.session (.logGone "" "")), store)
  | some stored =>
    let (outcome, stored) := work stored
    (outcome, store.setStored number stored)

/-- Works on the log of a topic, which is opened unless it is open. -/
def onTopic {α : Type} (store : Store) (topic : String)
    (work : StoredLog → Except Fault α × StoredLog) : Except Fault α × Store :=
  match store.get topic with
  | (.error fault, store) => (.error fault, store)
  | (.ok number, store) => store.onLog number work

/-- Tells the listeners of an open topic where its log ends now. -/
def announce (store : Store) (topic : String) : Store :=
  match (store.peek? topic).bind (store.logs[·]?) with
  | some log => store.tellAppended log
  | none => store

/-- Adds bytes to the log of a topic and tells its listeners. -/
def append (store : Store) (topic : String) (data : Bytes) (rollSize : Nat) (now : Instant) :
    Except Fault Nat × Store :=
  match store.onTopic topic (·.append data rollSize now) with
  | (.error fault, store) => (.error fault, store)
  | (.ok maxOffset, store) => (.ok maxOffset, store.announce topic)

/-- Adds bytes to the log of a topic if it ends at `offset`. Listeners are told of bytes only. -/
def appendAt (store : Store) (topic : String) (offset : Nat) (data : Bytes) (rollSize : Nat)
    (now : Instant) : Except Fault AppendResult × Store :=
  match store.onTopic topic (·.appendAt offset data rollSize now) with
  | (.ok (.appended maxOffset), store) =>
    (.ok (.appended maxOffset), if data.isEmpty then store else store.announce topic)
  | (outcome, store) => (outcome, store)

/-- Counts bytes that someone else added to the last segment. -/
def noteAppended (store : Store) (topic : String) (length : Nat) : Except Fault Unit × Store :=
  match store.onTopic topic fun stored =>
      (.ok (), { stored with log := stored.log.addBytes length }) with
  | (.error fault, store) => (.error fault, store)
  | (.ok (), store) => (.ok (), store.announce topic)

/-- Whether a log is still kept by the catalog or by someone else. -/
def isAlive (store : Store) (number : Nat) : Bool :=
  store.catalog.any (·.2 = number) || store.kept.contains number

/-- A reader and the log it belongs to. -/
def reader? (store : Store) (handle : Handle) : Option (TopicLog × Reader) := do
  let log ← store.logs[handle.log]?
  let reader ← log.reader? handle.reader
  some (log, reader)

/-- Works on the cursor of a reader, with the topic and the directory of its log. -/
def onCursor {α : Type} (store : Store) (handle : Handle)
    (work : String → Directory → Cursor → Except Fault α × Cursor) : Except Fault α × Store :=
  match store.reader? handle with
  | none => (.error (.session (.logGone "" "")), store)
  | some (log, reader) =>
    let (outcome, cursor) := work log.topic (store.volume.directory log.topic) reader.cursor
    (outcome, store.setLog handle.log (log.setCursor handle.reader cursor))

/-- Registers a listener with a log and tells its number there. -/
def addListener (store : Store) (number : Nat) (listener : Listener) : Nat × Store :=
  match store.logs[number]? with
  | none => (0, store)
  | some log =>
    let (id, log) := log.addListener listener
    (id, store.setLog number log)

/-- Unregisters a listener and tells whether it was registered. -/
def removeListener (store : Store) (number id : Nat) : Bool × Store :=
  match store.logs[number]? with
  | none => (false, store)
  | some log => (log.hasListener id, store.setLog number (log.removeListener id))

/-- Registers a reader with a log. -/
def addReader (store : Store) (number : Nat) (name : String) (offset : Nat) :
    Except Fault Handle × Store :=
  store.onLog number fun stored =>
    match stored.log.addReader name offset with
    | .error fault => (.error fault, stored)
    | .ok (id, log) => (.ok ⟨number, id⟩, { stored with log })

/-- Unregisters a reader from a log, if it is registered there. -/
def removeReader (store : Store) (number : Nat) (handle : Handle) : Bool × Store :=
  match store.logs[number]? with
  | none => (false, store)
  | some log =>
    if handle.log = number ∧ log.hasReader handle.reader then
      (true, store.setLog number (log.removeReader handle.reader))
    else (false, store)

/-- Moves a reader to `offset` of its log, as long as the log is kept. -/
def seek (store : Store) (handle : Handle) (offset : Nat) : Except Fault Unit × Store :=
  match store.reader? handle with
  | none => (.error (.session (.logGone "" "")), store)
  | some (log, reader) =>
    if store.isAlive handle.log then
      match Cursor.place log.segments log.maxOffset offset with
      | .error fault => (.error fault, store)
      | .ok cursor => (.ok (), store.setLog handle.log (log.setCursor handle.reader cursor))
    else (.error (.session (.logGone log.topic reader.name)), store)

/-- The sum of the ends of all open logs. -/
def totalBytes (store : Store) : Nat :=
  (store.catalog.filterMap fun entry => store.logs[entry.2]?.map (·.maxOffset)).foldr (· + ·) 0

end Store

end ReplicatedLog
