import ReplicatedLog.Program.Settings
import ReplicatedLog.Replication.Session
import ReplicatedLog.Text.Lines
import ReplicatedLog.Writer

namespace ReplicatedLog

namespace Producer

/-- Registers a topic where its checkpoint says, as far as the log has that offset. A log that
    was cleaned up entirely goes on at the checkpoint. -/
def resume (producer : Producer) (topic : String) (now : Instant) :
    Except Fault Unit × Producer :=
  match producer.store.get topic with
  | (.error fault, store) => (.error fault, { producer with store })
  | (.ok number, store) =>
    let producer := { producer with store }
    match Checkpoint.load producer.checkpoints topic with
    | .error fault => (.error fault, producer)
    | .ok stored =>
      let (outcome, store) :=
        match stored with
        | some offset => store.onLog number (·.resumeAt offset now)
        | none => (.ok (), store)
      let producer := { producer with store }
      match outcome, store.logs[number]? with
      | .error fault, _ => (.error fault, producer)
      | .ok (), none => (.error (.session (.logGone topic "")), producer)
      | .ok (), some log =>
        let start := min (max (stored.getD log.firstOffset) log.firstOffset) log.maxOffset
        let (outcome, client, store) := producer.client.register store number start
        (outcome.map fun _ => (), { producer with client, store })

/-- Registers topics one after the other, up to the first fault. -/
def resumeAll (now : Instant) : List String → Producer → Except Fault Unit × Producer
  | [], producer => (.ok (), producer)
  | topic :: rest, producer =>
    match producer.resume topic now with
    | (.error fault, producer) => (.error fault, producer)
    | (.ok (), producer) => resumeAll now rest producer

/-- Adds entries to the log of a topic and writes what is buffered then. -/
def ingest (producer : Producer) (writer : BackgroundWriter) (topic : String)
    (entries : List Bytes) (now : Instant) : Producer :=
  (producer.change fun store =>
    let (writer, store) := entries.foldl (fun (writer, store) entry =>
      let (_, writer, store) := BackgroundWriter.add writer store topic entry now
      (writer, store)) (writer, store)
    ((), (writer.flush store now).2.2)).2

end Producer

/-- What the program replicates from. -/
structure SyncInput where
  data : Volume := {}
  offsets : Directory := {}
  /-- A topic that is fed with lines, and the text that holds them. -/
  feed : Option (String × Bytes) := none

namespace SyncInput

/-- The topics to be registered, in order. -/
def topics (input : SyncInput) : List String :=
  let extra := input.feed.map (·.1)
  (extra.toList ++ input.data.topics).eraseDups.mergeSort (· ≤ ·)

/-- The producer before anything is registered. -/
def producer (input : SyncInput) (settings : SyncSettings) : Producer :=
  { store := { volume := input.data }, client := { settings }
    sinks := [.checkpoints input.offsets] }

end SyncInput

namespace Sync

/-- Registers all topics and takes in the lines of the feed. -/
def prepare (settings : ProgramSettings) (input : SyncInput) (now : Instant) :
    Except ProgramFault Unit × Producer :=
  match settings.checkedSync with
  | .error fault => (.error fault, input.producer settings.sync)
  | .ok sync =>
    let producer := input.producer sync
    if sync.remote.isNone then (.error .remoteMissing, producer)
    else
      match Producer.resumeAll now input.topics producer with
      | (.error fault, producer) => (.error (.log fault), producer)
      | (.ok (), producer) =>
        match input.feed with
        | none => (.ok (), producer)
        | some (topic, text) =>
          let started := settings.checkedWriter.bind fun writer =>
            (BackgroundWriter.start writer).mapError .log
          match started with
          | .error fault => (.error fault, producer)
          | .ok writer => (.ok (), producer.ingest writer topic (Text.lines text) now)

/-- Runs the program until all is replicated or it fails, with the settings that were loaded. -/
def run {σ : Type} (peer : Peer σ) (fuel : Nat) (input : SyncInput) (state : σ) (clock : Nat)
    (settings : Except ProgramFault ProgramSettings) :
    Option (Except ProgramFault Unit) × Producer × σ :=
  let prepared : Except ProgramFault Unit × Producer :=
    match settings with
    | .error fault => (.error fault, input.producer {})
    | .ok settings => prepare settings input (.ofNanos clock)
  match prepared with
  | (.error fault, producer) => (some (.error fault), producer, state)
  | (.ok (), producer) =>
    let (outcome, rest) := Session.runFrom peer fuel producer state clock
    (outcome.map fun outcome => outcome.mapError .log, rest)

end Sync

end ReplicatedLog
