import ReplicatedLog.Proofs.Replication.Membership
import ReplicatedLog.Proofs.Replication.Waking

namespace ReplicatedLog

/-- What a client with a connection is about to do before it waits for anything. -/
structure Round where
  /-- The topics to be looked at. -/
  visits : List String := []
  /-- The topic whose next region is being read, to be published. -/
  reading : Option (String × Region) := none
  deriving DecidableEq, Repr

/-- A client in its loop. -/
structure ConnectionLoop where
  producer : Producer
  /-- The time in nanoseconds. -/
  clock : Nat
  /-- What the client is about, while it has a connection. -/
  round : Option Round := none

namespace ConnectionLoop

/-- What can happen to a client and its logs. -/
inductive Action
  | append (topic : String) (data : Bytes) (rollSize : Nat) (now : Instant)
  | cleanup (topic : String) (retain : Nat) (now : Instant)
  | cleanupAll (topic : String) (retain external : Nat) (now : Instant)
  /-- The client replicates a topic from an offset on. -/
  | register (topic : String) (offset : Nat)
  /-- The client replicates a topic from where a new reader of some name stands. -/
  | enlist (topic name : String) (offset : Nat)
  | wake (topic : String)
  /-- Time passes. -/
  | wait (duration : Nat)
  /-- Some timers fire. -/
  | fire (ready : Nat × String → Bool)
  | connect
  | disconnect
  /-- The client looks at the next of the topics it is about to look at. The random number is for the
      delay this may begin, here and below. -/
  | visit (random : Float)
  /-- The bytes that are to be published were read, or could not be read. -/
  | finishRead (outcome : Except IoFault Bytes) (random : Float)
  /-- The client takes up the topic that was woken first. -/
  | take
  /-- The client takes up a reply. -/
  | reply (packet : Packet) (random : Float)

/-- A client that replicates nothing yet. -/
def start (volume : Volume) (settings : SyncSettings) (sinks : List Sink) (clock : Nat) :
    ConnectionLoop where
  producer := { store := { volume }, client := { settings }, sinks }
  clock

def setClient (loop : ConnectionLoop) (client : Client) : ConnectionLoop :=
  { loop with producer := { loop.producer with client } }

/-- The connection is lost. -/
def lose (loop : ConnectionLoop) : ConnectionLoop :=
  { loop.setClient loop.producer.client.disconnected with round := none }

/-- The client connects. Every topic is looked at then, so wakes so far are not needed. -/
def connect (loop : ConnectionLoop) : ConnectionLoop :=
  match loop.round with
  | some _ => loop
  | none =>
    { loop.setClient { loop.producer.client with queue := [], pending := [] } with
      round := some { visits := loop.producer.client.publications.map (·.topic) } }

/-- Looks at the next topic. Bytes to be published are read first. -/
def visit (loop : ConnectionLoop) (random : Float) : ConnectionLoop :=
  match loop.round with
  | some ⟨topic :: visits, none⟩ =>
    let (region?, producer) := loop.producer.nextPublish topic ⟨loop.clock, random⟩
    { loop with producer, round := some { visits, reading := region?.map (topic, ·) } }
  | _ => loop

/-- The bytes that were read are sent. The connection is lost if that fails. -/
def finishRead (loop : ConnectionLoop) (outcome : Except IoFault Bytes) (random : Float) :
    ConnectionLoop :=
  match loop.round with
  | some ⟨visits, some (topic, region)⟩ =>
    match loop.producer.finishRead topic ⟨loop.clock, random⟩ region outcome with
    | (.error _, producer) => lose { loop with producer }
    | (.ok _, producer) => { loop with producer, round := some { visits } }
  | _ => loop

def take (loop : ConnectionLoop) : ConnectionLoop :=
  match loop.round, loop.producer.client.take with
  | some ⟨[], none⟩, some (topic, client) =>
    { loop.setClient client with round := some { visits := [topic] } }
  | _, _ => loop

/-- A reply is taken up, after which its topic is looked at. The connection is lost if that fails. -/
def reply (loop : ConnectionLoop) (packet : Packet) (random : Float) : ConnectionLoop :=
  match loop.round with
  | some ⟨[], none⟩ =>
    match loop.producer.handleReply packet ⟨loop.clock, random⟩ with
    | (.error _, producer) => lose { loop with producer }
    | (.ok topic, producer) => { loop with producer, round := some { visits := [topic] } }
  | _ => loop

/-- The loop after an action. -/
def perform (loop : ConnectionLoop) : Action → ConnectionLoop
  | .append topic data rollSize now =>
    { loop with producer :=
        (loop.producer.change fun store => store.append topic data rollSize now).2 }
  | .cleanup topic retain now =>
    { loop with producer :=
        (loop.producer.change fun store => store.onTopic topic (·.cleanup retain now)).2 }
  | .cleanupAll topic retain external now =>
    { loop with producer := (loop.producer.change fun store =>
        store.onTopic topic (·.cleanupAll retain external now)).2 }
  | .register topic offset => { loop with producer := (loop.producer.register topic offset).2 }
  | .enlist topic name offset => { loop with producer := loop.producer.enlist topic name offset }
  | .wake topic => loop.setClient (loop.producer.client.wake topic)
  | .wait duration => { loop with clock := loop.clock + duration }
  | .fire ready => loop.setClient (loop.producer.client.fireThose ready)
  | .connect => loop.connect
  | .disconnect => loop.lose
  | .visit random => loop.visit random
  | .finishRead outcome random => loop.finishRead outcome random
  | .take => loop.take
  | .reply packet random => loop.reply packet random

/-- Timers do not fire early. Logs keep to names that a directory can have, to years of four digits
    and to offsets of 64 bits. -/
def Fits (loop : ConnectionLoop) : Action → Prop
  | .append topic data _ now => topic.utf8ByteSize ≤ maxNameLength ∧ now.InCalendar ∧
      ∀ stored, loop.producer.store.current topic = .ok stored →
        stored.log.maxOffset + data.length ≤ Decimal.maxValue
  | .cleanup topic _ _ | .cleanupAll topic _ _ _ | .register topic _ | .enlist topic _ _ =>
      topic.utf8ByteSize ≤ maxNameLength
  | .fire ready => ∀ timer ∈ loop.producer.client.timers, ready timer = true → timer.1 ≤ loop.clock
  | _ => True

/-- A loop comes from another by actions that are possible when they happen. -/
inductive Run (start : ConnectionLoop) : ConnectionLoop → Prop
  | refl : Run start start
  | step {loop : ConnectionLoop} (hrun : Run start loop) (action : Action)
      (hfits : loop.Fits action) : Run start (loop.perform action)

end ConnectionLoop

end ReplicatedLog
