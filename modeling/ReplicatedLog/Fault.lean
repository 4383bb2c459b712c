namespace ReplicatedLog

/-- The sorts of failure a disk or a connection reports. -/
inductive IoKind
  | timedOut
  | interrupted
  | connectionRefused
  | connectionReset
  | connectionAborted
  | notConnected
  | brokenPipe
  | unexpectedEnd
  | wouldBlock
  | other
  deriving DecidableEq, Repr

/-- A failed operation on a disk or a connection. -/
inductive IoFault
  /-- Refused by the operating system, under its error number. -/
  | system (number : Nat)
  /-- A frame announces more bytes than one frame may hold. -/
  | frameTooBig
  /-- The connection ended inside a frame. -/
  | trailingBytes
  /-- A text file holds bytes that are not UTF-8. -/
  | invalidUtf8
  /-- Any failure of which only the sort is known. -/
  | ofKind (kind : IoKind)
  deriving DecidableEq, Repr

/-- A packet that ends too early, by what was being read. -/
inductive Truncation
  | emptyPacket
  | varint
  | field (name : String) (needed available : Nat)
  | other (text : String)
  deriving DecidableEq, Repr

/-- A packet field with a value outside the protocol. -/
inductive Malformation
  | fieldWidth (name : String) (width : Nat)
  | messageKind (kind : Nat)
  | ackSubtype (subtype : Nat)
  | topicLength (length limit : Nat)
  | other (text : String)
  deriving DecidableEq, Repr

/-- A failure to encode or decode packets. -/
inductive WireFault
  | io (fault : IoFault)
  | truncated (cause : Truncation)
  | malformed (cause : Malformation)
  | varintOverflow
  | frameTooLarge (size : Nat)
  deriving DecidableEq, Repr

/-- Text that is not a decimal number of 64 bits. -/
inductive NumberFault
  | empty
  | invalidDigit
  | tooLarge
  deriving DecidableEq, Repr

/-- A segment file name that does not decode. -/
inductive NameFault
  | missingSeparator
  | offsetDigits
  | timeDigits
  | offset (cause : NumberFault)
  | timeOutOfRange
  deriving DecidableEq, Repr

/-- Stored data that fails validation. -/
inductive Corruption
  | selectorBits (selector : UInt8)
  | blockLengths (raw compressed : Nat)
  | payload
  | payloadLength (actual declared : Nat)
  | entryLength (cause : WireFault)
  | entryOverrun (length available : Nat)
  | undecodedTail (topic : String) (decoded total : Nat)
  | storedOffset (topic text : String) (cause : NumberFault)
  | other (text : String)
  deriving DecidableEq, Repr

/-- Consecutive segments that do not line up. -/
inductive Gap
  | cursor (topic next current : String) (offset : Nat)
  | size (topic current : String) (length : Nat) (next : String) (expected : Nat)
  | other (text : String)
  deriving DecidableEq, Repr

/-- A failure of a replication session. -/
inductive SessionFault
  | logGone (topic cursor : String)
  | alreadyRegistered (topic : String)
  | alreadyListening
  | gaveUp (remote : String) (attempts : Nat)
  | replyTopic
  | unexpectedPublish
  | topicText
  | noHandler
  | other (text : String)
  deriving DecidableEq, Repr

/-- A failure of the entry writer. -/
inductive WriterFault
  | stopped
  | other (text : String)
  deriving DecidableEq, Repr

/-- A setting with a value outside its range. -/
inductive SettingFlaw
  | rollSize
  | compressionLevel
  | maxBuffer
  | flushInterval
  | capacity
  | chunkSize
  | serviceRollSize
  | connectTimeout
  | clientName
  | remoteAddress
  | delayOrder
  | multiplier
  | jitter
  deriving DecidableEq, Repr

/-- A setting that cannot be used. -/
inductive SettingFault
  | topicName (name : String)
  | remoteMissing
  | flaw (setting : SettingFlaw)
  | other (text : String)
  deriving DecidableEq, Repr

/-- A failure of the log store or of replication. -/
inductive Fault
  | io (fault : IoFault)
  | segmentName (name : String) (cause : NameFault)
  | segmentNameNote (text : String)
  | corruption (cause : Corruption)
  | discontinuity (cause : Gap)
  | invalidOffset (offset maxOffset : Nat)
  | offsetDeleted (offset firstOffset : Nat)
  | wire (fault : WireFault)
  | writer (cause : WriterFault)
  | session (cause : SessionFault)
  | setting (cause : SettingFault)
  | temporary (text : String)
  deriving DecidableEq, Repr

/-- The sort of failure behind each error number of the operating system. -/
def IoKind.ofNumber : Nat → IoKind
  | 4 => .interrupted
  | 11 => .wouldBlock
  | 32 => .brokenPipe
  | 103 => .connectionAborted
  | 104 => .connectionReset
  | 107 => .notConnected
  | 110 => .timedOut
  | 111 => .connectionRefused
  | _ => .other

/-- The sort of an I/O failure. -/
def IoFault.kind : IoFault → IoKind
  | .system number => .ofNumber number
  | .ofKind kind => kind
  | .frameTooBig | .trailingBytes | .invalidUtf8 => .other

/-- Every named sort may pass when tried again; the rest may not. -/
def IoFault.isTransient (fault : IoFault) : Bool :=
  fault.kind != .other

/-- Violated invariants, after which work on the topic must stop. -/
def Fault.isFatal : Fault → Bool
  | .segmentName .. | .segmentNameNote .. | .corruption .. | .discontinuity ..
  | .invalidOffset .. | .offsetDeleted .. => true
  | _ => false

/-- Failures worth another attempt. A broken connection always is. -/
def Fault.isRetryable : Fault → Bool
  | .temporary _ => true
  | .io fault => fault.isTransient
  | .wire (.io _) => true
  | _ => false

end ReplicatedLog
