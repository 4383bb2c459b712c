import ReplicatedLog.Replication.Client
import ReplicatedLog.Replication.Sink
import ReplicatedLog.Wire.Frame

namespace ReplicatedLog

/-- When a step is taken, in nanoseconds, and the random number for a delay that it may begin. -/
structure Moment where
  time : Nat
  random : Float := 0.5

/-- The logs of a producer, the client that replicates them, and those who are told of what was
    acknowledged. A topic has at most one publish without a reply, and its reader moves only with the
    reply. -/
structure Producer where
  store : Store := {}
  client : Client := {}
  sinks : List Sink := []

/-- The bytes of a region. -/
def Directory.readRegion (dir : Directory) (region : Region) : Except IoFault Bytes := do
  let file ← dir.file region.segment.name
  let bytes := (file.bytes.drop region.position).take region.length
  if bytes.length < region.length then .error (.ofKind .unexpectedEnd) else .ok bytes

namespace Client

/-- Plans another publish of a topic after a failure, or gives the topic up. -/
def scheduleRetry (client : Client) (topic : String) (moment : Moment) : Client :=
  match client.publication? topic with
  | none => client
  | some publication =>
    if client.settings.retry.allows publication.failures then
      let failures := RetryPolicy.counted publication.failures
      let due := moment.time + client.settings.retry.delay failures moment.random
      let client := client.modify topic fun publication =>
        { publication with failures, retryAt := some due }
      { client with timers := client.timers ++ [(due, topic)] }
    else client.modify topic fun publication => { publication with halted := true }

/-- Gives up a topic whose reader met a fatal fault; any other fault may pass. -/
def cursorFailed (client : Client) (topic : String) (fault : Fault) (moment : Moment) : Client :=
  if fault.isFatal then
    client.modify topic fun publication => { publication with halted := true }
  else client.scheduleRetry topic moment

/-- Forgets that a publish waits for its reply. -/
def clearOutstanding (client : Client) (topic : String) : Client :=
  client.modify topic fun publication => { publication with outstanding := none }

/-- A topic with the length of its publish that waits for a reply. -/
def outstanding? (client : Client) (topic : String) : Option (Publication × Nat) := do
  let publication ← client.publication? topic
  let length ← publication.outstanding
  some (publication, length)

/-- After the loss of the connection no publish waits for a reply any more. -/
def disconnected (client : Client) : Client :=
  { client with publications := client.publications.map fun publication =>
      { publication with outstanding := none, retryAt := none } }

/-- Whether nothing is left to do: each topic is given up or acknowledged to its end. -/
def isSettled (client : Client) (store : Store) : Bool :=
  client.publications.all fun publication =>
    let (offset, maxOffset) := offsets publication store
    publication.outstanding.isNone && (publication.halted || offset = maxOffset)

end Client

namespace Producer

/-- Works on the logs. The client hears of what is added to them. -/
def change {α : Type} (producer : Producer) (work : Store → α × Store) : α × Producer :=
  let (outcome, store) := work producer.store
  let told := store.events.drop producer.store.events.length
  (outcome, { producer with store, client := producer.client.notice told })

/-- Replicates a topic from `offset` on, with a new reader. -/
def register (producer : Producer) (topic : String) (offset : Nat) :
    Except Fault Handle × Producer :=
  match producer.store.get topic with
  | (.error fault, store) => (.error fault, { producer with store })
  | (.ok number, store) =>
    let (outcome, client, store) := producer.client.register store number offset
    (outcome, { producer with client, store })

/-- The directory of the first sink that keeps offsets in files. -/
def checkpoints (producer : Producer) : Directory :=
  (producer.sinks.findSome? Sink.directory?).getD {}

/-- What the first sink that keeps a list was told. -/
def journal (producer : Producer) : List (String × Nat) :=
  (producer.sinks.findSome? Sink.told?).getD []

/-- The bytes a topic publishes next, if it may publish now. From then on they wait for a
    reply. -/
def nextPublish (producer : Producer) (topic : String) (moment : Moment) :
    Option Region × Producer :=
  match producer.client.publication? topic with
  | none => (none, producer)
  | some publication =>
    if publication.halted || publication.outstanding.isSome
        || publication.retryAt.any fun due => moment.time < due then (none, producer)
    else
      let client := producer.client.modify topic fun publication =>
        { publication with retryAt := none }
      let limit := client.settings.chunkSize
      match producer.store.onCursor publication.handle fun topic dir cursor =>
          cursor.nextRegion topic dir limit with
      | (.error fault, store) =>
        (none, { producer with store, client := client.cursorFailed topic fault moment })
      | (.ok none, store) => (none, { producer with store, client })
      | (.ok (some region), store) =>
        let client := client.modify topic fun publication =>
          { publication with
            outstanding := some region.length
            publishedBytes := publication.publishedBytes + region.length
            everPublished := true }
        (some region, { producer with store, client })

/-- Counts a publish that went out. -/
def countPublish (producer : Producer) (length : Nat) : Producer :=
  let stats := producer.client.stats
  { producer with client := { producer.client with stats := { stats with
      publishes := stats.publishes + 1, bytesPublished := stats.bytesPublished + length } } }

/-- Ends a publish with what was read of its region, and gives the frame to be sent. Bytes that could
    not be read are tried again later. -/
def finishRead (producer : Producer) (topic : String) (moment : Moment) (region : Region) :
    Except IoFault Bytes → Except WireFault (Option Bytes) × Producer
  | .error _ =>
    let client := (producer.client.clearOutstanding topic).scheduleRetry topic moment
    (.ok none, { producer with client })
  | .ok data =>
    match Frame.encode (.publish region.offset (Utf8.encode topic) data) with
    | .error fault => (.error fault, producer)
    | .ok frame => (.ok (some frame), producer.countPublish data.length)

/-- Publishes the next bytes of a topic, if it may publish now. -/
def publish (producer : Producer) (topic : String) (moment : Moment) :
    Except WireFault (Option Bytes) × Producer :=
  match producer.nextPublish topic moment with
  | (none, producer) => (.ok none, producer)
  | (some region, producer) =>
    producer.finishRead topic moment region
      ((producer.store.volume.directory topic).readRegion region)

/-- Everything up to the publish that waits is stored by the service: the sinks are told, then
    the reader moves. -/
def acknowledge (producer : Producer) (topic : String) (moment : Moment) :
    Except Fault Unit × Producer :=
  match producer.client.outstanding? topic with
  | none => (.ok (), producer)
  | some (publication, length) =>
    let offset := (Client.offsets publication producer.store).1 + length
    match Sink.storeAll topic offset (.ofNanos moment.time) producer.sinks with
    | (.error fault, sinks) => (.error fault, { producer with sinks })
    | (.ok (), sinks) =>
      let (outcome, store) := producer.store.onCursor publication.handle fun topic dir cursor =>
        cursor.consume topic dir length
      let stats := producer.client.stats
      let client := { producer.client with stats := { stats with acks := stats.acks + 1 } }
      let client := client.modify topic fun publication =>
        { publication with outstanding := none, failures := 0 }
      let client :=
        match outcome with
        | .ok () => client.modify topic fun publication =>
            { publication with ackedBytes := publication.ackedBytes + length }
        | .error fault => client.cursorFailed topic fault moment
      (.ok (), { store, client, sinks })

/-- The service wants the bytes from `offset` on: the sinks are told, then the reader moves
    there. -/
def reset (producer : Producer) (topic : String) (offset : Nat) (moment : Moment) :
    Except Fault Unit × Producer :=
  match producer.client.outstanding? topic with
  | none => (.ok (), producer)
  | some (publication, _) =>
    let stats := producer.client.stats
    let client := { producer.client with stats := { stats with resets := stats.resets + 1 } }
    match Sink.storeAll topic offset (.ofNanos moment.time) producer.sinks with
    | (.error fault, sinks) => (.error fault, { producer with client, sinks })
    | (.ok (), sinks) =>
      let (outcome, store) := producer.store.seek publication.handle offset
      let client := client.clearOutstanding topic
      let client :=
        match outcome with
        | .ok () => client
        | .error fault => client.cursorFailed topic fault moment
      (.ok (), { store, client, sinks })

/-- The service could not store the publish that waits; it is sent again later. -/
def refuse (producer : Producer) (topic : String) (moment : Moment) : Producer :=
  match producer.client.outstanding? topic with
  | none => producer
  | some _ =>
    let stats := producer.client.stats
    let client := { producer.client with stats := { stats with failures := stats.failures + 1 } }
    { producer with client := (client.clearOutstanding topic).scheduleRetry topic moment }

/-- Takes up a reply and tells its topic. A fault ends the connection. -/
def handleReply (producer : Producer) (packet : Packet) (moment : Moment) :
    Except Fault String × Producer :=
  match Utf8.decode? packet.topic with
  | none => (.error (.session .replyTopic), producer)
  | some topic =>
    match packet with
    | .ack _ =>
      let (outcome, producer) := producer.acknowledge topic moment
      (outcome.map fun _ => topic, producer)
    | .reset _ offset =>
      let (outcome, producer) := producer.reset topic offset moment
      (outcome.map fun _ => topic, producer)
    | .failure _ => (.ok topic, producer.refuse topic moment)
    | .publish .. => (.error (.session .unexpectedPublish), producer)

end Producer

end ReplicatedLog
