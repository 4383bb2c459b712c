import ReplicatedLog.Program.Settings
import ReplicatedLog.Replication.ServicePeer

namespace ReplicatedLog.Serve

/-- The service that the program runs over the logs below a root directory. -/
def start (settings : ProgramSettings) (data : Volume) : Except ProgramFault Service := do
  let sync ← settings.checkedSync
  let (outcome, service) := (Service.ofStore { volume := data } sync.serviceRollSize).start
  outcome.mapError .log
  .ok service

/-- The service with a client that is connected to it. -/
def connect (settings : ProgramSettings) (data : Volume) : Except ProgramFault ServicePeer := do
  let service ← start settings data
  .ok (ServicePeer.peer.accept { service })

end ReplicatedLog.Serve
