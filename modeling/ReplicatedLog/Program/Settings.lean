import ReplicatedLog.Program.Fault
import ReplicatedLog.Toml.Parser

namespace ReplicatedLog

/-- The settings of the program. Times are in nanoseconds. -/
structure ProgramSettings where
  /-- The root directory of the logs. -/
  dataDir : String := "./data"
  /-- The directory of the checkpoints. -/
  offsetsDir : String := "./offsets"
  sync : SyncSettings := {}
  writer : WriterSettings := {}
  /-- How old a segment is at least before it may be deleted. -/
  retain : Nat := 86400000000000
  /-- The time between two deletions, 0 for none at all. -/
  cleanupInterval : Nat := 60000000000

/-- What the environment puts in place of settings. -/
structure Overrides where
  dataDir : Option String := none
  remote : Option String := none
  bindAddress : Option String := none
  deriving DecidableEq, Repr

namespace Document

def milliseconds? (doc : Document) : Option Nat :=
  doc.word64?.map (· * 1000000)

def seconds? (doc : Document) : Option Nat :=
  doc.word64?.map (· * 1000000000)

end Document

/-- Settings of replication as the section `sync` of a file writes them. -/
def SyncSettings.ofSection? (doc : Document) : Option SyncSettings := do
  let base : SyncSettings := {}
  let bindAddress ← doc.member 0 "bind_addr" Document.address? base.bindAddress
  let remote ← doc.member 1 "remote_addr" (fun doc => doc.text?.map some) base.remote
  let clientName ← doc.member 2 "client_name" Document.text? base.clientName
  let chunkSize ← doc.member 3 "chunk_size" Document.word64? base.chunkSize
  let connectTimeout ←
    doc.member 4 "connect_timeout_ms" Document.milliseconds? base.connectTimeout
  let ackWarning ← doc.member 5 "ack_warning_secs" Document.seconds? base.ackWarning
  let serviceRollSize ← doc.member 6 "service_roll_size" Document.word64? base.serviceRollSize
  let initialDelay ←
    doc.member 7 "retry_initial_ms" Document.milliseconds? base.retry.initialDelay
  let maxDelay ← doc.member 8 "retry_max_ms" Document.milliseconds? base.retry.maxDelay
  let maxAttempts ← doc.member 9 "retry_max_attempts" Document.word32? base.retry.maxAttempts
  let retry := { base.retry with maxAttempts, initialDelay, maxDelay }
  some { bindAddress, remote, clientName, chunkSize, ackWarning, connectTimeout
         serviceRollSize, retry }

/-- Settings of the writer as the section `writer` of a file writes them. -/
def WriterSettings.ofSection? (doc : Document) : Option WriterSettings := do
  let base : WriterSettings := {}
  let rollSize ← doc.member 0 "roll_size" Document.word64? base.rollSize
  let compressionLevel ←
    doc.member 1 "compression_level" Document.signed32? base.compressionLevel
  let maxBuffer ← doc.member 2 "max_buffer_bytes" Document.word64? base.maxBuffer
  let flushInterval ← doc.member 3 "flush_interval_ms" Document.milliseconds? base.flushInterval
  some { base with rollSize, compressionLevel, maxBuffer, flushInterval }

namespace ProgramSettings

/-- The time a segment is kept and the time between deletions, as the section `retention` of a
    file writes them. -/
def retention? (doc : Document) : Option (Nat × Nat) := do
  let base : ProgramSettings := {}
  let retain ← doc.member 0 "retain_secs" Document.seconds? base.retain
  let interval ← doc.member 1 "cleanup_interval_secs" Document.seconds? base.cleanupInterval
  some (retain, interval)

def ofDocument? (doc : Document) : Option ProgramSettings := do
  let base : ProgramSettings := {}
  let dataDir ← doc.member 0 "data_dir" Document.text? base.dataDir
  let offsetsDir ← doc.member 1 "offsets_dir" Document.text? base.offsetsDir
  let sync ← doc.member 2 "sync" SyncSettings.ofSection? base.sync
  let writer ← doc.member 3 "writer" WriterSettings.ofSection? base.writer
  let (retain, cleanupInterval) ←
    doc.member 4 "retention" retention? (base.retain, base.cleanupInterval)
  some { dataDir, offsetsDir, sync, writer, retain, cleanupInterval }

/-- The settings that a file tells. What it leaves out keeps its usual value. -/
def ofText (text : String) : Except ProgramFault ProgramSettings :=
  match (Toml.parse? text).bind ofDocument? with
  | some settings => .ok settings
  | none => .error .settingsFile

/-- Puts what the environment tells in place of settings. -/
def override (settings : ProgramSettings) (overrides : Overrides) :
    Except ProgramFault ProgramSettings := do
  let sync := settings.sync
  let bindAddress ←
    match overrides.bindAddress with
    | none => .ok sync.bindAddress
    | some text =>
      match SocketAddress.parse? text with
      | some address => .ok address
      | none => .error (.bindAddress text)
  let remote := overrides.remote.or sync.remote
  .ok { settings with
    dataDir := overrides.dataDir.getD settings.dataDir
    sync := { sync with bindAddress, remote } }

/-- The settings of replication, if they are in range. -/
def checkedSync (settings : ProgramSettings) : Except ProgramFault SyncSettings :=
  match settings.sync.validate with
  | .ok () => .ok settings.sync
  | .error flaw => .error (.syncSection flaw)

/-- The settings of the writer, if they are in range. -/
def checkedWriter (settings : ProgramSettings) : Except ProgramFault WriterSettings :=
  match settings.writer.validate with
  | .ok () => .ok settings.writer
  | .error flaw => .error (.writerSection flaw)

end ProgramSettings

end ReplicatedLog
