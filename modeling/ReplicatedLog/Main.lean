import Std.Time.DateTime.Timestamp
import ReplicatedLog.Program.Check
import ReplicatedLog.Program.Command
import ReplicatedLog.Program.Serve
import ReplicatedLog.Program.Sync
import ReplicatedLog.Replication.ServicePeer

namespace ReplicatedLog

/-- The time in nanoseconds. -/
def readClock : IO Nat := do
  let time ← Std.Time.Timestamp.now
  return time.toNanosecondsSinceUnixEpoch.val.toNat

def readFiles (paths : List String) : IO (List (String × Bytes)) :=
  paths.mapM fun (path : String) => do return (path, (← IO.FS.readBinFile path).toList)

def writeFile (root name : String) (bytes : Bytes) : IO Unit := do
  IO.FS.createDirAll root
  IO.FS.writeBinFile s!"{root}/{name}" bytes.toByteArray

def writeVolume (root : String) (volume : Volume) : IO Unit :=
  volume.files.forM fun (topic, name, bytes) => writeFile s!"{root}/{topic}" name bytes

/-- The settings in the working directory, with what the environment puts in their place. -/
def readSettings (remote : Option String) : IO (Except ProgramFault ProgramSettings) := do
  let text ← (IO.FS.readFile "logsync.toml").toBaseIO
  let dataDir ← IO.getEnv "LOGSYNC_DATA_DIR"
  let remote := remote.or (← IO.getEnv "LOGSYNC_REMOTE_ADDR")
  let bindAddress ← IO.getEnv "LOGSYNC_BIND_ADDR"
  return (ProgramSettings.ofText (text.toOption.getD "")).bind
    (·.override { dataDir, remote, bindAddress })

partial def readToEnd (input : IO.FS.Stream) (before : ByteArray) : IO Bytes := do
  let bytes ← input.read 65536
  if bytes.isEmpty then return before.toList else readToEnd input (before ++ bytes)

/-- Answers what arrives on the standard input, up to its end. -/
partial def serveLoop (input output : IO.FS.Stream) (peer : ServicePeer) : IO ServicePeer := do
  let bytes ← input.read 65536
  if bytes.isEmpty || peer.connection.closed then return peer
  let (response, peer) := peer.receive (← readClock) bytes.toList
  output.write response.bytes.toByteArray
  output.flush
  serveLoop input output peer

/-- Tells on the standard error how the program ended, and gives its exit code. -/
def report (outcome : Except ProgramFault Unit) : IO UInt32 :=
  match outcome with
  | .ok () => return 0
  | .error fault => do
    fault.report.forM IO.eprintln
    return 1

def runCommand (command : Command) (files : List (String × Bytes)) : IO UInt32 := do
  let clock ← readClock
  let now := Instant.ofNanos clock
  match command with
  | .check left right =>
    let store := fun root => ({ volume := .ofFiles root files now } : Store)
    let (lines, outcome) := Check.run (store left) (store right)
    lines.forM IO.println
    report outcome
  | .serve =>
    match ← readSettings none with
    | .error fault => report (.error fault)
    | .ok settings =>
      match Serve.connect settings (.ofFiles settings.dataDir files now) with
      | .error fault => report (.error fault)
      | .ok peer =>
        let peer ← serveLoop (← IO.getStdin) (← IO.getStdout) peer
        writeVolume settings.dataDir peer.service.store.volume
        return 0
  | .sync remote feed =>
    let settings ← readSettings remote
    let directories := settings.toOption.getD {}
    let root := directories.sync.remote.getD ""
    let text ← if feed.isSome then readToEnd (← IO.getStdin) .empty else pure []
    let input : SyncInput :=
      { data := .ofFiles directories.dataDir files now
        offsets := .ofFiles directories.offsetsDir files now
        feed := feed.map fun topic => (topic, text) }
    let service := Service.ofStore { volume := .ofFiles root files now }
      directories.sync.serviceRollSize
    let (outcome, producer, peer) :=
      Sync.run ServicePeer.peer 0x4000000000000000 input { service } clock settings
    writeVolume directories.dataDir producer.store.volume
    writeVolume root peer.service.store.volume
    for (name, file) in (producer.checkpoints.items.toOption.getD []).files do
      writeFile directories.offsetsDir name file.bytes
    report (outcome.getD (.ok ()))

end ReplicatedLog

def main (args : List String) : IO UInt32 :=
  match ReplicatedLog.Command.ofWords? args with
  | none => do
    ReplicatedLog.Command.usage.forM IO.eprintln
    return 2
  | some (command, paths) => do ReplicatedLog.runCommand command (← ReplicatedLog.readFiles paths)
