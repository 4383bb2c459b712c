import ReplicatedLog.Replication.Session

namespace ReplicatedLog

/-- What is done to the local log of a topic before a publish is answered. -/
inductive LocalChange
  | append (data : Bytes) (rollSize : Nat)
  /-- Deletes the segments that are not needed any more, whatever their age. -/
  | cleanup
  /-- Deletes the files behind the back of the log. -/
  | wipe
  deriving DecidableEq, Repr

/-- A part of an answer. -/
inductive ScriptReply
  | ack
  | failure
  | reset (offset : Nat)
  | packet (packet : Packet)
  /-- Bytes that need not make a frame. -/
  | raw (bytes : Bytes)
  /-- Closes the connection; what follows in the answer is not sent. -/
  | close
  deriving DecidableEq, Repr

structure ScriptAction where
  change : Option LocalChange := none
  /-- Sent all at once. -/
  replies : List ScriptReply := [.ack]
  deriving DecidableEq, Repr

/-- A publish as the peer received it. -/
structure ReceivedPublish where
  topic : String
  offset : Nat
  data : Bytes
  deriving DecidableEq, Repr

/-- A peer that answers from a script. Publishes beyond the actions of a topic are acknowledged. -/
structure Script where
  reachable : Bool := true
  /-- The actions left for each topic. -/
  actions : List (String × List ScriptAction) := []
  received : List ReceivedPublish := []
  reader : FrameReader := {}
  closed : Bool := false
  deriving DecidableEq, Repr

/-- Changes the log of an open topic. -/
def LocalChange.apply (change : LocalChange) (topic : String) (now : Instant) (store : Store) :
    Store :=
  match change with
  | .append data rollSize => (store.append topic data rollSize now).2
  | .cleanup => (store.onTopic topic (·.cleanup 0 now)).2
  | .wipe => (store.onDirectory topic Directory.wipe).2

/-- The bytes of an answer to a publish of a topic. -/
def ScriptReply.response (topic : Bytes) : List ScriptReply → Response
  | [] => {}
  | .close :: _ => { closes := true }
  | .raw bytes :: rest =>
    let response := response topic rest
    { response with bytes := bytes ++ response.bytes }
  | .ack :: rest => framed (.ack topic) (response topic rest)
  | .failure :: rest => framed (.failure topic) (response topic rest)
  | .reset offset :: rest => framed (.reset topic offset) (response topic rest)
  | .packet sent :: rest => framed sent (response topic rest)
where
  /-- Puts a frame in front, unless the packet does not fit into one. -/
  framed (packet : Packet) (response : Response) : Response :=
    match Frame.encode packet with
    | .ok frame => { response with bytes := frame ++ response.bytes }
    | .error _ => response

namespace Script

/-- The next action for a topic. -/
def next (script : Script) (topic : String) : ScriptAction × Script :=
  match script.actions.lookup topic with
  | some (action :: rest) =>
    (action, { script with actions := script.actions.map fun entry =>
      if entry.1 = topic then (topic, rest) else entry })
  | _ => ({}, script)

/-- Answers packets in order, up to one that closes the connection. -/
def answer (time : Nat) : List (Except WireFault Packet) → Script → Store →
    Response × Store × Script
  | [], script, store => ({}, store, script)
  | .ok (.publish offset topic data) :: rest, script, store =>
    let name := Utf8.decodeLossy topic
    let (action, script) := script.next name
    let script := { script with received := script.received ++ [⟨name, offset, data⟩] }
    let store := (action.change.map fun change =>
      change.apply name (.ofNanos time) store).getD store
    let response := ScriptReply.response topic action.replies
    if response.closes then (response, store, { script with closed := true })
    else
      let (others, store, script) := answer time rest script store
      ({ others with bytes := response.bytes ++ others.bytes }, store, script)
  | _ :: rest, script, store => answer time rest script store

/-- Takes up bytes of a client. -/
def receive (script : Script) (store : Store) (time : Nat) (bytes : Bytes) :
    Response × Store × Script :=
  if script.closed then ({ closes := true }, store, script)
  else
    let (packets, reader) := (script.reader.feed bytes).drain
    answer time packets { script with reader } store

/-- The script as the other end of a connection. -/
def peer : Peer Script where
  reachable := Script.reachable
  accept script := { script with reader := {}, closed := false }
  receive := receive

end Script

end ReplicatedLog
