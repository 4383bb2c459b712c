import ReplicatedLog.Settings.Basic

namespace ReplicatedLog

/-- A tree of values, as settings are written in one notation or another. -/
inductive Document
  | null
  | boolean (value : Bool)
  | integer (value : Int)
  | float (value : Float)
  | text (value : String)
  | list (items : List Document)
  | table (members : List (String × Document))
  deriving Inhabited

namespace Document

def ofNat (value : Nat) : Document :=
  .integer value

/-- A member of a record that knows its members by name or by position; the given value where
    the member is left out. -/
def member {α : Type} (record : Document) (index : Nat) (name : String)
    (read : Document → Option α) (left : α) : Option α :=
  match record with
  | .table members =>
    match members.lookup name with
    | some value => read value
    | none => some left
  | .list items =>
    match items[index]? with
    | some value => read value
    | none => some left
  | _ => none

/-- Whether a record written by position has no more than `count` members. -/
def fits (record : Document) (count : Nat) : Bool :=
  match record with
  | .list items => items.length ≤ count
  | _ => true

def intBetween? (low high : Int) : Document → Option Int
  | .integer value => if low ≤ value ∧ value ≤ high then some value else none
  | _ => none

/-- A whole number of 64 bits. -/
def word64? (doc : Document) : Option Nat :=
  (doc.intBetween? 0 0xffffffffffffffff).map Int.toNat

/-- A whole number of 32 bits. -/
def word32? (doc : Document) : Option Nat :=
  (doc.intBetween? 0 0xffffffff).map Int.toNat

/-- A signed number of 32 bits. -/
def signed32? (doc : Document) : Option Int :=
  doc.intBetween? (-0x80000000) 0x7fffffff

/-- A number that may have a fraction. -/
def float? : Document → Option Float
  | .float value => some value
  | .integer value => some (Float.ofInt value)
  | _ => none

def text? : Document → Option String
  | .text value => some value
  | _ => none

/-- Nothing, or a text. -/
def optionalText? : Document → Option (Option String)
  | .null => some none
  | .text value => some (some value)
  | _ => none

def address? (doc : Document) : Option SocketAddress :=
  doc.text?.bind SocketAddress.parse?

/-- Seconds and nanoseconds as nanoseconds. A surplus of nanoseconds counts as seconds, which
    have 64 bits. -/
def timeOf? (seconds nanos : Document) : Option Nat := do
  let total := (← seconds.word64?) * 1000000000 + (← nanos.word32?)
  if total < 0x10000000000000000 * 1000000000 then some total else none

/-- A span of time: seconds and nanoseconds, both given, and nothing else. -/
def time? : Document → Option Nat
  | .table [(first, a), (second, b)] =>
    if first = "secs" ∧ second = "nanos" then timeOf? a b
    else if first = "nanos" ∧ second = "secs" then timeOf? b a
    else none
  | .list [seconds, nanos] => timeOf? seconds nanos
  | _ => none

def ofTime (nanos : Nat) : Document :=
  .table [("secs", ofNat (nanos / 1000000000)), ("nanos", ofNat (nanos % 1000000000))]

end Document

namespace RetryPolicy

def ofDocument? (doc : Document) : Option RetryPolicy := do
  let base : RetryPolicy := {}
  let maxAttempts ← doc.member 0 "max_attempts" Document.word32? base.maxAttempts
  let initialDelay ← doc.member 1 "initial_delay" Document.time? base.initialDelay
  let maxDelay ← doc.member 2 "max_delay" Document.time? base.maxDelay
  let multiplier ← doc.member 3 "backoff_multiplier" Document.float? base.multiplier
  let jitter ← doc.member 4 "jitter_factor" Document.float? base.jitter
  if doc.fits 5 then some { maxAttempts, initialDelay, maxDelay, multiplier, jitter } else none

def toDocument (policy : RetryPolicy) : Document :=
  .table [("max_attempts", .ofNat policy.maxAttempts),
    ("initial_delay", .ofTime policy.initialDelay), ("max_delay", .ofTime policy.maxDelay),
    ("backoff_multiplier", .float policy.multiplier), ("jitter_factor", .float policy.jitter)]

end RetryPolicy

namespace WriterSettings

def ofDocument? (doc : Document) : Option WriterSettings := do
  let base : WriterSettings := {}
  let rollSize ← doc.member 0 "roll_size" Document.word64? base.rollSize
  let compressionLevel ← doc.member 1 "compression_level" Document.signed32? base.compressionLevel
  let maxBuffer ← doc.member 2 "max_buffer_bytes" Document.word64? base.maxBuffer
  let flushInterval ← doc.member 3 "flush_interval" Document.time? base.flushInterval
  let capacity ← doc.member 4 "channel_capacity" Document.word64? base.capacity
  if doc.fits 5 then some { rollSize, compressionLevel, maxBuffer, flushInterval, capacity }
  else none

def toDocument (settings : WriterSettings) : Document :=
  .table [("roll_size", .ofNat settings.rollSize),
    ("compression_level", .integer settings.compressionLevel),
    ("max_buffer_bytes", .ofNat settings.maxBuffer),
    ("flush_interval", .ofTime settings.flushInterval),
    ("channel_capacity", .ofNat settings.capacity)]

end WriterSettings

namespace SyncSettings

def ofDocument? (doc : Document) : Option SyncSettings := do
  let base : SyncSettings := {}
  let bindAddress ← doc.member 0 "bind_addr" Document.address? base.bindAddress
  let remote ← doc.member 1 "remote_addr" Document.optionalText? base.remote
  let clientName ← doc.member 2 "client_name" Document.text? base.clientName
  let chunkSize ← doc.member 3 "chunk_size" Document.word64? base.chunkSize
  let ackWarning ← doc.member 4 "ack_warning" Document.time? base.ackWarning
  let connectTimeout ← doc.member 5 "connect_timeout" Document.time? base.connectTimeout
  let serviceRollSize ← doc.member 6 "service_roll_size" Document.word64? base.serviceRollSize
  let retry ← doc.member 7 "retry" RetryPolicy.ofDocument? base.retry
  if doc.fits 8 then
    some { bindAddress, remote, clientName, chunkSize, ackWarning, connectTimeout
           serviceRollSize, retry }
  else none

def toDocument (settings : SyncSettings) : Document :=
  .table [("bind_addr", .text settings.bindAddress.render),
    ("remote_addr", settings.remote.elim .null .text), ("client_name", .text settings.clientName),
    ("chunk_size", .ofNat settings.chunkSize), ("ack_warning", .ofTime settings.ackWarning),
    ("connect_timeout", .ofTime settings.connectTimeout),
    ("service_roll_size", .ofNat settings.serviceRollSize),
    ("retry", settings.retry.toDocument)]

end SyncSettings

end ReplicatedLog
