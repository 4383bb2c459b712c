import ReplicatedLog.Replication.Service
import ReplicatedLog.Replication.Session

namespace ReplicatedLog

/-- A service with its connection to one client. -/
structure ServicePeer where
  service : Service
  connection : Connection := {}
  reachable : Bool := true

namespace ServicePeer

/-- The frames of replies. -/
def frames (replies : List Packet) : Bytes :=
  replies.flatMap fun reply => (Frame.encode reply).toOption.getD []

/-- Takes up bytes of the client. -/
def receive (peer : ServicePeer) (time : Nat) (bytes : Bytes) : Response × ServicePeer :=
  let (replies, connection, service) :=
    peer.service.receive peer.connection bytes (.ofNanos time)
  ({ bytes := frames replies, closes := connection.closed }, { peer with service, connection })

/-- A service as the other end of a connection. It does not touch the logs of the producer. -/
def peer : Peer ServicePeer where
  reachable := ServicePeer.reachable
  accept peer :=
    let (connection, service) := peer.service.accept
    { peer with service, connection }
  receive peer store time bytes :=
    let (response, peer) := peer.receive time bytes
    (response, store, peer)

end ServicePeer

end ReplicatedLog
