import ReplicatedLog.Wire.Packet

namespace ReplicatedLog

namespace Frame

/-- The longest frame body, in either direction. -/
def maxLength : Nat := 0x8000000

/-- The width of the length in front of a body. -/
def headLength : Nat := 4

/-- A body behind its length. -/
def wrap (body : Bytes) : Bytes :=
  Bytes.ofNatBE headLength body.length ++ body

/-- The head of a frame for a body of `length` bytes; fails where that is too long. -/
def head (length : Nat) : Except WireFault Bytes :=
  if maxLength < length then .error (.frameTooLarge length)
  else .ok (Bytes.ofNatBE headLength length)

/-- Puts the frame of a packet behind `out`, the length first. -/
def write (packet : Packet) (out : Bytes) : Except WireFault Unit × Bytes :=
  match head packet.encodedLength with
  | .error fault => (.error fault, out)
  | .ok start =>
    match packet.encode with
    | .error fault => (.error fault, out ++ start)
    | .ok body => (.ok (), out ++ start ++ body)

/-- The frame of a packet; fails where the packet does not fit into one. -/
def encode (packet : Packet) : Except WireFault Bytes :=
  let (outcome, frame) := write packet []
  outcome.map fun () => frame

end Frame

/-- A reader of frames between two arrivals of bytes: the length of the body it waits for, once
    that is read, and the bytes not used yet. -/
structure FrameReader where
  awaited : Option Nat := none
  buffer : Bytes := []
  deriving DecidableEq, Repr

namespace FrameReader

/-- Bytes arrive behind those not used yet. -/
def feed (reader : FrameReader) (bytes : Bytes) : FrameReader :=
  { reader with buffer := reader.buffer ++ bytes }

/-- Takes a body of `length` bytes once all of it is there. -/
def takeBody (reader : FrameReader) (length : Nat) : Option Bytes × FrameReader :=
  if reader.buffer.length < length then (none, { reader with awaited := some length })
  else (some (reader.buffer.take length), ⟨none, reader.buffer.drop length⟩)

/-- The length that the buffer starts with. -/
def announced (reader : FrameReader) : Nat :=
  Bytes.toNatBE (reader.buffer.take Frame.headLength)

/-- The reader behind the length that the buffer starts with. -/
def dropHead (reader : FrameReader) : FrameReader :=
  ⟨none, reader.buffer.drop Frame.headLength⟩

/-- The next whole body, if it has arrived. A length that is too big stays in the buffer. -/
def nextBody (reader : FrameReader) : Except IoFault (Option Bytes) × FrameReader :=
  match reader.awaited with
  | some length => Prod.map .ok id (reader.takeBody length)
  | none =>
    if reader.buffer.length < Frame.headLength then (.ok none, reader)
    else if Frame.maxLength < reader.announced then (.error .frameTooBig, reader)
    else Prod.map .ok id (reader.dropHead.takeBody reader.announced)

/-- Like `nextBody` once no more bytes can arrive: what is left then is a fault. -/
def lastBody (reader : FrameReader) : Except IoFault (Option Bytes) × FrameReader :=
  match reader.nextBody with
  | (.ok none, reader) =>
    if reader.buffer.isEmpty then (.ok none, reader) else (.error .trailingBytes, reader)
  | result => result

/-- Bytes to come before the reader is at rest. -/
def measure (reader : FrameReader) : Nat :=
  reader.buffer.length + (if reader.awaited.isSome then 1 else 0)

theorem measure_takeBody_lt {reader next : FrameReader} {length : Nat} {body : Bytes}
    (hbody : reader.takeBody length = (some body, next)) :
    next.measure < reader.buffer.length + 1 := by
  unfold takeBody at hbody
  split at hbody
  · simp at hbody
  · obtain ⟨_, rfl⟩ := Prod.mk.inj hbody
    have := List.length_drop (i := length) (l := reader.buffer)
    grind [measure]

theorem takeBody_of_map_ok {reader next : FrameReader} {length : Nat} {body : Option Bytes}
    (hmap : Prod.map (Except.ok (ε := IoFault)) id (reader.takeBody length) = (.ok body, next)) :
    reader.takeBody length = (body, next) := by
  obtain ⟨hbody, hnext⟩ := Prod.mk.inj hmap
  exact Prod.ext (Except.ok.inj hbody) hnext

theorem measure_nextBody_lt {reader next : FrameReader} {body : Bytes}
    (hbody : reader.nextBody = (.ok (some body), next)) : next.measure < reader.measure := by
  unfold nextBody at hbody
  split at hbody
  next length hawaited =>
    have := measure_takeBody_lt (takeBody_of_map_ok hbody)
    simpa [measure, hawaited] using this
  next hawaited =>
    split at hbody
    · simp at hbody
    · split at hbody
      · simp at hbody
      · have hlt := measure_takeBody_lt (takeBody_of_map_ok hbody)
        have hhead : Frame.headLength = 4 := rfl
        simp only [dropHead, List.length_drop] at hlt
        simp only [measure, hawaited, Option.isSome_none]
        simp only [measure] at hlt
        simp
        omega

/-- The packet of a body. What does not decode costs only its own frame. -/
def packetOf (body : Bytes) : Except WireFault Packet :=
  Packet.decode body

/-- Every packet that has arrived, in order, with a fault in place of each body that does not
    decode, and last the fault of the stream itself, if it has one. -/
def drain (reader : FrameReader) : List (Except WireFault Packet) × FrameReader :=
  match hbody : reader.nextBody with
  | (.error fault, reader) => ([.error (.io fault)], reader)
  | (.ok none, reader) => ([], reader)
  | (.ok (some body), next) =>
    have := measure_nextBody_lt hbody
    let (packets, last) := drain next
    (packetOf body :: packets, last)
termination_by reader.measure

/-- Like `drain` once no more bytes can arrive. -/
def finish (reader : FrameReader) : List (Except WireFault Packet) × FrameReader :=
  match reader.drain with
  | (packets, reader) =>
    match packets.getLast?, reader.lastBody with
    | some (.error (.io _)), _ => (packets, reader)
    | _, (.error fault, reader) => (packets ++ [.error (.io fault)], reader)
    | _, (.ok _, reader) => (packets, reader)

end FrameReader

end ReplicatedLog
