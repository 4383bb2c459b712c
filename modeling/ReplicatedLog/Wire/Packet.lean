import ReplicatedLog.Text.Utf8
import ReplicatedLog.Wire.Number

namespace ReplicatedLog

/-- The messages of replication. A topic travels as bytes, which need not be text. -/
inductive Packet
  /-- From the publisher: log bytes of `topic` that start at `offset`. -/
  | publish (offset : Nat) (topic data : Bytes)
  /-- From the receiver: the last chunk of `topic` is stored. -/
  | ack (topic : Bytes)
  /-- From the receiver: publish `topic` again from `offset`. -/
  | reset (topic : Bytes) (offset : Nat)
  /-- From the receiver: the last chunk of `topic` could not be stored. -/
  | failure (topic : Bytes)
  deriving DecidableEq, Repr

namespace Packet

/-- The longest topic whose length fits its field. -/
def maxTopicLength : Nat := 0xffffffff

def topic : Packet → Bytes
  | publish _ topic _ | ack topic | reset topic _ | failure topic => topic

/-- The topic as text, with a replacement character where it is not UTF-8. -/
def topicText (packet : Packet) : String :=
  Utf8.decodeLossy packet.topic

def name : Packet → String
  | publish .. => "PUBLISH"
  | ack .. => "PUBACK"
  | reset .. => "PUBNAK/RESET"
  | failure .. => "PUBNAK/FAILURE"

/-- The number of bytes of the encoding. -/
def encodedLength (packet : Packet) : Nat :=
  let topicPart := FixedWidth.width packet.topic.length + packet.topic.length
  match packet with
  | publish offset _ data => 1 + FixedWidth.width offset + topicPart + data.length
  | ack _ | failure _ => 1 + topicPart
  | reset _ offset => 1 + topicPart + Varint.length offset

/-- A topic behind its length. -/
def topicField (topic : Bytes) : Bytes :=
  Bytes.ofNatBE (FixedWidth.width topic.length) topic.length ++ topic

/-- The head byte of a publish: kind 0, the width of the offset and that of the topic's length,
    each less one. -/
def publishHead (offset : Nat) (topic : Bytes) : UInt8 :=
  UInt8.ofNat ((FixedWidth.width offset - 1) * 4 + (FixedWidth.width topic.length - 1))

/-- The head byte of a reply: kind 1, the subtype, and the width of the topic's length less
    one. -/
def replyHead (subtype : Nat) (topic : Bytes) : UInt8 :=
  UInt8.ofNat (32 + subtype * 8 + (FixedWidth.width topic.length - 1))

/-- The bytes of a packet whose topic is not too long. -/
def layout : Packet → Bytes
  | publish offset topic data =>
    publishHead offset topic :: Bytes.ofNatBE (FixedWidth.width offset) offset
      ++ topicField topic ++ data
  | ack topic => replyHead 0 topic :: topicField topic
  | reset topic offset => replyHead 1 topic :: topicField topic ++ Varint.encode offset
  | failure topic => replyHead 2 topic :: topicField topic

/-- The bytes of a packet; fails where the topic's length does not fit its field. -/
def encode (packet : Packet) : Except WireFault Bytes :=
  if maxTopicLength < packet.topic.length then
    .error (.malformed (.topicLength packet.topic.length maxTopicLength))
  else .ok packet.layout

/-- Reads a topic behind its length, whose width the head byte tells. -/
def decodeTopic (head : Nat) (bytes : Bytes) : Except WireFault (Bytes × Bytes) := do
  let (length, rest) ← FixedWidth.decode "topic-len" (head % 4 + 1) bytes
  if rest.length < length then .error (.truncated (.field "topic" length rest.length))
  else .ok (rest.take length, rest.drop length)

def decodePublish (head : Nat) (bytes : Bytes) : Except WireFault Packet := do
  let (offset, rest) ← FixedWidth.decode "offset" (head / 4 % 8 + 1) bytes
  let (topic, data) ← decodeTopic head rest
  .ok (publish offset topic data)

/-- Reads a reply. Bytes behind it have no meaning. -/
def decodeReply (head : Nat) (bytes : Bytes) : Except WireFault Packet := do
  let (topic, rest) ← decodeTopic head bytes
  match head / 8 % 4 with
  | 0 => .ok (ack topic)
  | 1 => do
    let offset ← (Varint.decode rest).1
    .ok (reset topic offset)
  | 2 => .ok (failure topic)
  | subtype => .error (.malformed (.ackSubtype subtype))

/-- Reads the packet that takes up the whole of `bytes`. -/
def decode : Bytes → Except WireFault Packet
  | [] => .error (.truncated .emptyPacket)
  | head :: rest =>
    match head.toNat / 32 with
    | 0 => decodePublish head.toNat rest
    | 1 => decodeReply head.toNat rest
    | kind => .error (.malformed (.messageKind kind))

end Packet

end ReplicatedLog
