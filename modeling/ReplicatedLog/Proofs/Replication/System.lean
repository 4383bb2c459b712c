import ReplicatedLog.Proofs.Replication.Membership
import ReplicatedLog.Replication.ServicePeer

namespace ReplicatedLog

/-- A producer and a service, and the connection between them. -/
structure System where
  producer : Producer
  peer : ServicePeer
  /-- The connection as the client sees it, if there is one. -/
  link : Option FrameReader := none
  /-- Frames on their way to the service. -/
  sent : List Bytes := []
  /-- What the service answered to one frame each, on its way to the client. -/
  replies : List Bytes := []

namespace System

/-- What can happen to a system. -/
inductive Action
  | append (topic : String) (data : Bytes) (rollSize : Nat) (now : Instant)
  | cleanup (topic : String) (retain : Nat) (now : Instant)
  | cleanupAll (topic : String) (retain external : Nat) (now : Instant)
  /-- The client replicates a topic from an offset on. -/
  | register (topic : String) (offset : Nat)
  /-- The client replicates a topic from where a new reader of some name stands. -/
  | enlist (topic name : String) (offset : Nat)
  /-- The client gives up the topic of a reader. -/
  | remove (handle : Handle)
  | wake (topic : String)
  /-- The timers of the client that are due wake their topics. -/
  | fire (time : Nat)
  /-- The client publishes the next bytes of a topic, if it may. -/
  | publish (topic : String) (moment : Moment)
  /-- The client publishes the next bytes of the topic that was woken first. -/
  | publishNext (moment : Moment)
  /-- The service takes up the next frame. -/
  | serve (time : Nat)
  /-- The client takes up what arrives next. -/
  | deliver (moment : Moment)
  | disconnect
  | connect
  /-- The service ends, and starts again on the files that it left. -/
  | restart (rollSize : Nat)

/-- A producer and a service that opened nothing yet. -/
def start (volume other : Volume) (settings : SyncSettings) (sinks : List Sink) (rollSize : Nat) :
    System where
  producer := { store := { volume }, client := { settings }, sinks }
  peer := { service := .ofStore { volume := other } rollSize }

def setClient (system : System) (client : Client) : System :=
  { system with producer := { system.producer with client } }

/-- The connection is lost with all that is under way. -/
def lose (system : System) : System :=
  { system.setClient system.producer.client.disconnected with link := none, sent := [], replies := [] }

/-- The client connects. Every topic is tried then, so wakes so far are not needed. -/
def connect (system : System) : System :=
  match system.link with
  | some _ => system
  | none =>
    { system.setClient { system.producer.client with queue := [], pending := [] } with
      peer := ServicePeer.peer.accept system.peer, link := some {} }

/-- A publish sends a frame, or nothing. The connection is lost if it fails. -/
def sends (system : System) : Except WireFault (Option Bytes) × Producer → System
  | (.error _, producer) => lose { system with producer }
  | (.ok none, producer) => { system with producer }
  | (.ok (some frame), producer) => { system with producer, sent := system.sent ++ [frame] }

/-- Publishes the next bytes of a topic over a connection. -/
def publish (system : System) (topic : String) (moment : Moment) : System :=
  match system.link with
  | none => system
  | some _ => system.sends (system.producer.publish topic moment)

/-- The service takes up the next frame. -/
def serve (system : System) (time : Nat) : System :=
  match system.sent with
  | [] => system
  | frame :: sent =>
    let (response, peer) := system.peer.receive time frame
    { system with peer, sent, replies := system.replies ++ [response.bytes] }

/-- A reply is taken up. The connection is lost if that fails. -/
def takes (system : System) (reader : FrameReader) (replies : List Bytes) :
    Except Fault String × Producer → System
  | (.error _, producer) => lose { system with producer }
  | (.ok _, producer) => { system with producer, link := some reader, replies }

/-- The client takes up what arrives next. -/
def deliver (system : System) (moment : Moment) : System :=
  match system.link, system.replies with
  | some reader, bytes :: replies =>
    match (reader.feed bytes).nextBody with
    | (.error _, _) => system.lose
    | (.ok none, reader) => { system with link := some reader, replies }
    | (.ok (some body), reader) =>
      match FrameReader.packetOf body with
      | .error _ => system.lose
      | .ok packet => system.takes reader replies (system.producer.handleReply packet moment)
  | _, _ => system

/-- The system after an action. -/
def perform (system : System) : Action → System
  | .append topic data rollSize now =>
    { system with producer :=
        (system.producer.change fun store => store.append topic data rollSize now).2 }
  | .cleanup topic retain now =>
    { system with producer :=
        (system.producer.change fun store => store.onTopic topic (·.cleanup retain now)).2 }
  | .cleanupAll topic retain external now =>
    { system with producer := (system.producer.change fun store =>
        store.onTopic topic (·.cleanupAll retain external now)).2 }
  | .register topic offset => { system with producer := (system.producer.register topic offset).2 }
  | .enlist topic name offset =>
    { system with producer := system.producer.enlist topic name offset }
  | .remove handle =>
    let (_, client, store) := system.producer.client.remove system.producer.store handle
    { system with producer := { system.producer with client, store } }
  | .wake topic => system.setClient (system.producer.client.wake topic)
  | .fire time => system.setClient (system.producer.client.fireTimers time)
  | .publish topic moment => system.publish topic moment
  | .publishNext moment =>
    match system.producer.client.take with
    | none => system
    | some (topic, client) => (system.setClient client).publish topic moment
  | .serve time => system.serve time
  | .deliver moment => system.deliver moment
  | .disconnect => system.lose
  | .connect => system.connect
  | .restart rollSize =>
    { system.lose with
      peer := { service := .ofStore { volume := system.peer.service.store.volume } rollSize } }

/-- What happens lies in years of four digits, and to topics with names that a directory can have. No
    offset needs more than 64 bits. -/
def Fits (system : System) : Action → Prop
  | .append topic data _ now => topic.utf8ByteSize ≤ maxNameLength ∧ now.InCalendar ∧
      ∀ stored, system.producer.store.current topic = .ok stored →
        stored.log.maxOffset + data.length ≤ Decimal.maxValue
  | .cleanup topic _ _ | .cleanupAll topic _ _ _ | .register topic _ | .enlist topic _ _ =>
      topic.utf8ByteSize ≤ maxNameLength
  | .serve time => (Instant.ofNanos time).InCalendar
  | _ => True

/-- An action by which the client may take up a topic at an offset. -/
def Action.Joins (topic : String) (offset : Nat) (action : Action) : Prop :=
  action = .register topic offset ∨ ∃ name, action = .enlist topic name offset

/-- What an action adds to the log of a topic. -/
def Action.adds (topic : String) : Action → Bytes
  | .append other data _ _ => if other = topic then data else []
  | _ => []

/-- What actions add to the log of a topic, one after the other. -/
def added (topic : String) (actions : List Action) : Bytes :=
  actions.flatMap (Action.adds topic)

/-- A system comes from another by actions that are allowed when they happen. -/
inductive Run (allowed : System → Action → Prop) (start : System) : List Action → System → Prop
  | refl : Run allowed start [] start
  | step {actions : List Action} {system : System} (hrun : Run allowed start actions system)
      (action : Action) (hfits : system.Fits action) (hallowed : allowed system action) :
      Run allowed start (actions ++ [action]) (system.perform action)

end System

end ReplicatedLog
