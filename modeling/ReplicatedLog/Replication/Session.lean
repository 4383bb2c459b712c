import ReplicatedLog.Replication.Producer

namespace ReplicatedLog

/-- What a peer does about bytes that reach it. -/
structure Response where
  bytes : Bytes := []
  /-- Whether the peer closes the connection behind them. -/
  closes : Bool := false
  deriving DecidableEq, Repr

/-- The other end of a connection, with a state of its own. It may change the logs of the
    producer, as others do while replication runs. -/
structure Peer (σ : Type) where
  reachable : σ → Bool
  accept : σ → σ
  receive : σ → Store → (time : Nat) → Bytes → Response × Store × σ

/-- A connection as the client sees it. -/
structure Link where
  reader : FrameReader := {}
  /-- Whether the peer sends nothing any more. -/
  closed : Bool := false
  deriving DecidableEq, Repr

inductive Phase
  | connecting
  | linked (link : Link)
  | ended (outcome : Except Fault Unit)

/-- A client at work. -/
structure Session (σ : Type) where
  producer : Producer
  peer : σ
  /-- The time in nanoseconds. -/
  clock : Nat
  /-- The random number of each time. -/
  random : Nat → Float
  backoff : Backoff
  phase : Phase := .connecting

namespace Session

variable {σ : Type}

/-- A session at its start. It ends at once without an address to connect to. -/
def start (producer : Producer) (peer : σ) (clock : Nat) (random : Nat → Float) : Session σ :=
  { producer, peer, clock, random
    backoff := { policy := producer.client.settings.retry }
    phase :=
      match producer.client.settings.remote with
      | some _ => .connecting
      | none => .ended (.error (.setting .remoteMissing)) }

def setClient (session : Session σ) (client : Client) : Session σ :=
  { session with producer := { session.producer with client } }

def moment (session : Session σ) : Moment :=
  ⟨session.clock, session.random session.clock⟩

/-- Ends the session, with nothing outstanding. -/
def finish (session : Session σ) (outcome : Except Fault Unit) : Session σ :=
  { session.setClient session.producer.client.disconnected with phase := .ended outcome }

/-- Lets time pass and wakes the topics whose timers are due by then. -/
def wait (session : Session σ) (clock : Nat) : Session σ :=
  { session.setClient (session.producer.client.fireTimers clock) with clock }

/-- After a connection was lost or could not be made: waits for the next attempt, or gives up. -/
def reconnect (session : Session σ) : Session σ :=
  let client := session.producer.client.disconnected
  match session.backoff.next session.moment.random with
  | (none, backoff) =>
    let remote := client.settings.remote.getD ""
    session.finish (.error (.session (.gaveUp remote backoff.attempts)))
  | (some delay, backoff) =>
    let stats := { client.stats with reconnects := client.stats.reconnects + 1 }
    let session := { session with backoff, phase := .connecting }
    (session.setClient { client with stats }).wait (session.clock + delay)

/-- Sends bytes to the peer, whose answer joins what has arrived. -/
def send (peer : Peer σ) (bytes : Bytes) (link : Link) (session : Session σ) :
    Link × Session σ :=
  let ((response, next), producer) := session.producer.change fun store =>
    let (response, store, next) := peer.receive session.peer store session.clock bytes
    ((response, next), store)
  ({ reader := link.reader.feed response.bytes, closed := link.closed || response.closes },
    { session with producer, peer := next })

/-- Publishes the next bytes of a topic over a connection, which is lost if that fails. -/
def publish (peer : Peer σ) (topic : String) (link : Link) (session : Session σ) : Session σ :=
  match session.producer.publish topic session.moment with
  | (.error _, producer) => { session with producer }.reconnect
  | (.ok none, producer) => { session with producer, phase := .linked link }
  | (.ok (some frame), producer) =>
    let (link, session) := send peer frame link { session with producer }
    { session with phase := .linked link }

/-- Publishes the next bytes of each topic in turn. -/
def publishAll (peer : Peer σ) : List String → Session σ → Session σ
  | [], session => session
  | topic :: rest, session =>
    match session.phase with
    | .linked link => publishAll peer rest (publish peer topic link session)
    | _ => session

/-- Connects to the peer. Every topic is tried then, so wakes so far are not needed. -/
def connect (peer : Peer σ) (session : Session σ) : Session σ :=
  if peer.reachable session.peer then
    let client := { session.producer.client with queue := [], pending := [] }
    let session := { session.setClient client with
      peer := peer.accept session.peer, backoff := session.backoff.reset, phase := .linked {} }
    publishAll peer (client.publications.map (·.topic)) session
  else session.reconnect

/-- Takes up a reply, after which its topic may publish again. -/
def handle (peer : Peer σ) (body : Bytes) (link : Link) (session : Session σ) : Session σ :=
  match FrameReader.packetOf body with
  | .error _ => session.reconnect
  | .ok packet =>
    match session.producer.handleReply packet session.moment with
    | (.error _, producer) => { session with producer }.reconnect
    | (.ok topic, producer) => publish peer topic link { session with producer }

/-- What a client does when no reply has arrived. -/
def idle (peer : Peer σ) (link : Link) (session : Session σ) : Session σ :=
  let client := session.producer.client
  if link.closed then session.reconnect
  else
    match client.take with
    | some (topic, client) => publish peer topic link (session.setClient client)
    | none =>
      if client.isSettled session.producer.store then session.finish (.ok ())
      else
        match client.nextTimer? with
        | some due => session.wait (max session.clock due)
        | none => session

/-- The next thing that happens. Replies go first, then wakes; time passes only when nothing else is
    left to do. -/
def step (peer : Peer σ) (session : Session σ) : Session σ :=
  match session.phase with
  | .ended _ => session
  | .connecting => session.connect peer
  | .linked link =>
    match link.reader.nextBody with
    | (.error _, _) => session.reconnect
    | (.ok (some body), reader) => session.handle peer body { link with reader }
    | (.ok none, reader) => session.idle peer { link with reader }

/-- Runs a session to its end and tells how it ended, unless it needs more steps than given. -/
def run (peer : Peer σ) : (fuel : Nat) → Session σ → Option (Except Fault Unit) × Session σ
  | 0, session => (none, session)
  | fuel + 1, session =>
    match session.phase with
    | .ended outcome => (some outcome, session)
    | _ => run peer fuel (session.step peer)

/-- Runs a producer against a peer from the start. -/
def runFrom (peer : Peer σ) (fuel : Nat) (producer : Producer) (state : σ) (clock : Nat)
    (random : Nat → Float := fun _ => 0.5) : Option (Except Fault Unit) × Producer × σ :=
  let (outcome, session) := run peer fuel (start producer state clock random)
  (outcome, session.producer, session.peer)

end Session

end ReplicatedLog
