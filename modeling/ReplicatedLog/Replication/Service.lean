import ReplicatedLog.Store.Basic
import ReplicatedLog.Wire.Frame

namespace ReplicatedLog

/-- What became of a publish. -/
inductive PublishOutcome
  | written
  /-- The log does not end at the claimed offset but at this one. -/
  | reset (maxOffset : Nat)
  | failed (fault : Fault)
  deriving DecidableEq, Repr

/-- Adds published bytes to the log of a topic, if it ends where they claim to start. -/
def Store.publish (store : Store) (topic : String) (offset : Nat) (data : Bytes)
    (rollSize : Nat) (now : Instant) : PublishOutcome × Store :=
  match store.appendAt topic offset data rollSize now with
  | (.ok (.appended _), store) => (.written, store)
  | (.ok (.mismatch maxOffset), store) => (.reset maxOffset, store)
  | (.error fault, store) => (.failed fault, store)

/-- Someone who is given published bytes. -/
inductive Handler
  /-- Adds them to the log of their topic. -/
  | store (rollSize : Nat)
  /-- Notes them, with the same outcome every time. -/
  | note (outcome : PublishOutcome)
  deriving DecidableEq, Repr

/-- Published bytes as they are noted. -/
structure PublishNote where
  topic : String
  offset : Nat
  length : Nat
  deriving DecidableEq, Repr

structure ServiceStats where
  connections : Nat := 0
  publishes : Nat := 0
  /-- Bytes of the publishes that were written. -/
  bytesReceived : Nat := 0
  acks : Nat := 0
  resets : Nat := 0
  failures : Nat := 0
  /-- Connections closed because a client sent what only a service may send. -/
  protocolErrors : Nat := 0
  deriving DecidableEq, Repr

/-- What was written of one topic. -/
structure TopicReceipts where
  bytes : Nat := 0
  publishes : Nat := 0
  deriving DecidableEq, Repr

/-- A service that takes publishes from clients. -/
structure Service where
  store : Store := {}
  /-- Each is given a publish in turn, as long as it is written by all before. -/
  handlers : List Handler := []
  listening : Bool := false
  stats : ServiceStats := {}
  receipts : List (String × TopicReceipts) := []
  notes : List PublishNote := []
  deriving DecidableEq, Repr

/-- A connection as the service sees it. -/
structure Connection where
  reader : FrameReader := {}
  closed : Bool := false
  deriving DecidableEq, Repr

namespace Service

/-- A service that adds all bytes to the logs of a store. -/
def ofStore (store : Store) (rollSize : Nat) : Service :=
  { store, handlers := [.store rollSize] }

/-- Starts to listen, unless the service listens already. -/
def start (service : Service) : Except Fault Unit × Service :=
  if service.listening then (.error (.session .alreadyListening), service)
  else (.ok (), { service with listening := true })

/-- Takes up a connection. -/
def accept (service : Service) : Connection × Service :=
  let stats := { service.stats with connections := service.stats.connections + 1 }
  ({}, { service with stats })

/-- Gives published bytes to one handler. -/
def handle (service : Service) (handler : Handler) (topic : String) (offset : Nat)
    (data : Bytes) (now : Instant) : PublishOutcome × Service :=
  match handler with
  | .store rollSize =>
    let (outcome, store) := service.store.publish topic offset data rollSize now
    (outcome, { service with store })
  | .note outcome =>
    (outcome, { service with notes := service.notes ++ [⟨topic, offset, data.length⟩] })

/-- Gives published bytes to handlers, up to the first that does not write them. -/
def handleAll (topic : String) (offset : Nat) (data : Bytes) (now : Instant) :
    List Handler → Service → PublishOutcome × Service
  | [], service => (.written, service)
  | handler :: rest, service =>
    match service.handle handler topic offset data now with
    | (.written, service) => handleAll topic offset data now rest service
    | (outcome, service) => (outcome, service)

/-- The outcome of a publish. Without handlers nothing can be written, nor for a topic that is
    not a text. -/
def outcome (service : Service) (topic : Bytes) (offset : Nat) (data : Bytes) (now : Instant) :
    PublishOutcome × Service :=
  match Utf8.decode? topic with
  | none => (.failed (.session .topicText), service)
  | some name =>
    if service.handlers.isEmpty then (.failed (.session .noHandler), service)
    else handleAll name offset data now service.handlers service

/-- Counts bytes written of a topic, which is added behind the others if it is new. -/
def addReceipt (topic : String) (length : Nat) :
    List (String × TopicReceipts) → List (String × TopicReceipts)
  | [] => [(topic, ⟨length, 1⟩)]
  | (other, receipts) :: rest =>
    if other = topic then (other, ⟨receipts.bytes + length, receipts.publishes + 1⟩) :: rest
    else (other, receipts) :: addReceipt topic length rest

/-- Takes up a publish and gives the reply. -/
def publish (service : Service) (topic : Bytes) (offset : Nat) (data : Bytes) (now : Instant) :
    Packet × Service :=
  let (outcome, service) := service.outcome topic offset data now
  let stats := { service.stats with publishes := service.stats.publishes + 1 }
  match outcome with
  | .written =>
    (.ack topic, { service with
      stats := { stats with
        acks := stats.acks + 1, bytesReceived := stats.bytesReceived + data.length }
      receipts := addReceipt (Utf8.decodeLossy topic) data.length service.receipts })
  | .reset maxOffset =>
    (.reset topic maxOffset, { service with stats := { stats with resets := stats.resets + 1 } })
  | .failed _ =>
    (.failure topic, { service with stats := { stats with failures := stats.failures + 1 } })

/-- Takes up what arrived on a connection, and gives the replies. The first packet that does not
    decode or is no publish closes the connection: the truth value tells whether it stays. -/
def handlePackets (now : Instant) :
    List (Except WireFault Packet) → Service → (List Packet × Bool) × Service
  | [], service => (([], true), service)
  | .error _ :: _, service => (([], false), service)
  | .ok (.publish offset topic data) :: rest, service =>
    let (reply, service) := service.publish topic offset data now
    let ((replies, stays), service) := handlePackets now rest service
    ((reply :: replies, stays), service)
  | .ok _ :: _, service =>
    let stats := { service.stats with protocolErrors := service.stats.protocolErrors + 1 }
    (([], false), { service with stats })

/-- Takes up bytes that arrive on a connection, and gives the replies. -/
def receive (service : Service) (connection : Connection) (bytes : Bytes) (now : Instant) :
    List Packet × Connection × Service :=
  if connection.closed then ([], connection, service)
  else
    let (packets, reader) := (connection.reader.feed bytes).drain
    let ((replies, stays), service) := handlePackets now packets service
    (replies, { reader, closed := !stays }, service)

end Service

end ReplicatedLog
