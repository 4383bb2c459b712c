import ReplicatedLog.Settings.Basic
import ReplicatedLog.Store.Basic

namespace ReplicatedLog

/-- The replication of one topic by a client. -/
structure Publication where
  topic : String
  /-- The reader that stands at the first byte not acknowledged. -/
  handle : Handle
  /-- The number of the client's listener at the log. -/
  listener : Nat
  /-- The length of the publish that waits for its reply. -/
  outstanding : Option Nat := none
  /-- When a publish may be tried again, in nanoseconds. -/
  retryAt : Option Nat := none
  /-- Failures since the last acknowledgement. -/
  failures : Nat := 0
  /-- Whether the topic was given up for good. -/
  halted : Bool := false
  publishedBytes : Nat := 0
  ackedBytes : Nat := 0
  everPublished : Bool := false
  deriving DecidableEq, Repr

structure ClientStats where
  publishes : Nat := 0
  bytesPublished : Nat := 0
  acks : Nat := 0
  resets : Nat := 0
  failures : Nat := 0
  reconnects : Nat := 0
  deriving DecidableEq, Repr

/-- A client that replicates topics of a store over one connection. -/
structure Client where
  settings : SyncSettings := {}
  /-- In the order of the topics. -/
  publications : List Publication := []
  /-- The topics to be looked at, in the order they were woken. -/
  queue : List String := []
  /-- The topics that are in the queue. -/
  pending : List String := []
  /-- Topics to be woken later, each with its time in nanoseconds. -/
  timers : List (Nat × String) := []
  stats : ClientStats := {}

namespace Client

def name (client : Client) : String :=
  client.settings.clientName

def publication? (client : Client) (topic : String) : Option Publication :=
  client.publications.find? fun publication => publication.topic = topic

/-- Changes what is known of one topic. -/
def modify (client : Client) (topic : String) (change : Publication → Publication) : Client :=
  { client with publications := client.publications.map fun publication =>
      if publication.topic = topic then change publication else publication }

/-- Puts a topic into the queue, unless it is there. -/
def wake (client : Client) (topic : String) : Client :=
  if client.pending.contains topic then client
  else { client with queue := client.queue ++ [topic], pending := topic :: client.pending }

/-- Takes the first topic out of the queue. -/
def take (client : Client) : Option (String × Client) :=
  match client.queue with
  | [] => none
  | topic :: queue =>
    some (topic, { client with queue, pending := client.pending.filter (· ≠ topic) })

/-- When the next timer is due. -/
def nextTimer? (client : Client) : Option Nat :=
  (client.timers.map (·.1)).min?

/-- Some timers fire, each of which wakes its topic. -/
def fireThose (client : Client) (ready : Nat × String → Bool) : Client :=
  let (due, later) := client.timers.partition ready
  due.foldl (fun client timer => client.wake timer.2) { client with timers := later }

/-- Wakes the topics of all timers that are due. -/
def fireTimers (client : Client) (time : Nat) : Client :=
  client.fireThose fun timer => timer.1 ≤ time

/-- Wakes the topics of events that are meant for this client. -/
def notice (client : Client) (events : List Event) : Client :=
  events.foldl (fun client event =>
    match event with
    | .appended (.replicator name) topic _ =>
      if name = client.name then client.wake topic else client
    | _ => client) client

def insertPublication (publication : Publication) : List Publication → List Publication
  | [] => [publication]
  | first :: rest =>
    if publication.topic < first.topic then publication :: first :: rest
    else first :: insertPublication publication rest

/-- Replicates the log of a reader from where it stands. -/
def add (client : Client) (store : Store) (handle : Handle) :
    Except Fault Unit × Client × Store :=
  match store.reader? handle with
  | none => (.error (.session (.logGone "" "")), client, store)
  | some (log, reader) =>
    let topic := log.topic
    if !store.isAlive handle.log then
      (.error (.session (.logGone topic reader.name)), client, store)
    else if (client.publication? topic).isSome then
      (.error (.session (.alreadyRegistered topic)), client, store)
    else
      let (listener, store) := store.addListener handle.log (.replicator client.name)
      let publications := insertPublication { topic, handle, listener } client.publications
      (.ok (), { client with publications }.wake topic,
        { store with kept := handle.log :: store.kept })

/-- Replicates a log from `offset` on, with a new reader. -/
def register (client : Client) (store : Store) (number offset : Nat) :
    Except Fault Handle × Client × Store :=
  match store.addReader number client.name offset with
  | (.error fault, store) => (.error fault, client, store)
  | (.ok handle, store) =>
    match client.add store handle with
    | (.ok (), client, store) => (.ok handle, client, store)
    | (.error fault, client, store) => (.error fault, client, (store.removeReader number handle).2)

/-- Unregisters the reader and the listener of a publication. -/
def release (publication : Publication) (store : Store) : Store :=
  let number := publication.handle.log
  let store := (store.removeListener number publication.listener).2
  let store := (store.removeReader number publication.handle).2
  { store with kept := store.kept.erase number }

/-- Ends the replication that uses a reader. Tells whether there was one. -/
def remove (client : Client) (store : Store) (handle : Handle) : Bool × Client × Store :=
  match client.publications.find? fun publication => publication.handle = handle with
  | none => (false, client, store)
  | some publication =>
    let publications := client.publications.filter fun other => other.topic ≠ publication.topic
    (true, { client with publications }, release publication store)

/-- Ends all replication. -/
def close (client : Client) (store : Store) : Store :=
  client.publications.foldl (fun store publication => release publication store) store

/-- Where the reader of a publication stands, and where its log ends as far as it knows. -/
def offsets (publication : Publication) (store : Store) : Nat × Nat :=
  match store.reader? publication.handle with
  | some (_, reader) => (reader.cursor.offset, reader.cursor.maxOffset)
  | none => (0, 0)

/-- The number of bytes not acknowledged. -/
def pendingBytes (client : Client) (store : Store) : Nat :=
  (client.publications.map fun publication =>
    let (offset, maxOffset) := offsets publication store
    maxOffset - offset).foldr (· + ·) 0

/-- Whether all is acknowledged. -/
def isCaughtUp (client : Client) (store : Store) : Bool :=
  client.publications.all fun publication =>
    let (offset, maxOffset) := offsets publication store
    publication.outstanding.isNone && offset = maxOffset

end Client

end ReplicatedLog
