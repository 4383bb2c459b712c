import ReplicatedLog.Net.SocketAddress
import ReplicatedLog.Retry

namespace ReplicatedLog

/-- How logs are replicated, on both sides. Times are in nanoseconds. -/
structure SyncSettings where
  /-- Where the service listens. -/
  bindAddress : SocketAddress := .v4 [0, 0, 0, 0] 7620
  /-- Where the client finds the service. -/
  remote : Option String := none
  /-- The name of the client's readers. -/
  clientName : String := "logsync"
  /-- The most bytes of one publish. -/
  chunkSize : Nat := 1048576
  ackWarning : Nat := 300000000000
  connectTimeout : Nat := 10000000000
  serviceRollSize : Nat := 33554432
  retry : RetryPolicy := {}

/-- Finds the first setting out of range. -/
def SyncSettings.validate (settings : SyncSettings) : Except SettingFlaw Unit :=
  if settings.chunkSize = 0 ∨ 1048576 < settings.chunkSize then .error .chunkSize
  else if settings.serviceRollSize = 0 then .error .serviceRollSize
  else if settings.connectTimeout = 0 then .error .connectTimeout
  else if settings.clientName.isEmpty then .error .clientName
  else if settings.remote = some "" then .error .remoteAddress
  else settings.retry.validate

/-- How entries are put into blocks and blocks into segments. -/
structure WriterSettings where
  rollSize : Nat := 32768
  compressionLevel : Int := 3
  /-- The number of buffered bytes at which a block is written. -/
  maxBuffer : Nat := 65536
  /-- In nanoseconds. -/
  flushInterval : Nat := 500000000
  /-- How many entries wait for a writer that runs on its own. -/
  capacity : Nat := 1024
  deriving DecidableEq, Repr

/-- Finds the first setting out of range. -/
def WriterSettings.validate (settings : WriterSettings) : Except SettingFlaw Unit :=
  if settings.rollSize = 0 then .error .rollSize
  else if ¬(1 ≤ settings.compressionLevel ∧ settings.compressionLevel ≤ 22) then
    .error .compressionLevel
  else if settings.maxBuffer = 0 ∨ 0x7fffffff < settings.maxBuffer then .error .maxBuffer
  else if settings.flushInterval = 0 then .error .flushInterval
  else if settings.capacity = 0 then .error .capacity
  else .ok ()

end ReplicatedLog
