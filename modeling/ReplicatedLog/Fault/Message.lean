import ReplicatedLog.Fault
import ReplicatedLog.Text.Quoted

namespace ReplicatedLog

/-- What the operating system calls an error number. -/
def systemErrorName : Nat → String
  | 2 => "No such file or directory"
  | 13 => "Permission denied"
  | 17 => "File exists"
  | 20 => "Not a directory"
  | 21 => "Is a directory"
  | 36 => "File name too long"
  | 39 => "Directory not empty"
  | 111 => "Connection refused"
  | _ => "Unknown error"

/-- An I/O failure with system errors by number alone. -/
def IoFault.message : IoFault → String
  | .system number => s!"os error {number}"
  | .frameTooBig => "frame size too big"
  | .trailingBytes => "bytes remaining on stream"
  | .invalidUtf8 => "stream did not contain valid UTF-8"
  | .ofKind .unexpectedEnd => "early eof"
  | .ofKind _ => "failed"

/-- An I/O failure with system errors by name and number. -/
def IoFault.namedMessage : IoFault → String
  | .system number => s!"{systemErrorName number} (os error {number})"
  | fault => fault.message

def Truncation.message : Truncation → String
  | .emptyPacket => "empty packet"
  | .varint => "varint"
  | .field name needed available => s!"{name}: need {needed} bytes, have {available}"
  | .other text => text

def Malformation.message : Malformation → String
  | .fieldWidth name width => s!"{name} width {width}"
  | .messageKind kind => s!"unknown message kind {kind}"
  | .ackSubtype subtype => s!"unknown ack subtype {subtype}"
  | .topicLength length limit => s!"topic length {length} exceeds {limit}"
  | .other text => text

/-- The wording of a wire fault, given the wording of I/O failures. -/
def WireFault.messageWith (io : IoFault → String) : WireFault → String
  | .io fault => s!"I/O error: {io fault}"
  | .truncated cause => s!"Truncated packet: {cause.message}"
  | .malformed cause => s!"Malformed packet: {cause.message}"
  | .varintOverflow => "Varint overflow"
  | .frameTooLarge size => s!"Frame too large: {size} bytes"

def WireFault.message : WireFault → String :=
  messageWith IoFault.message

def NumberFault.message : NumberFault → String
  | .empty => "cannot parse integer from empty string"
  | .invalidDigit => "invalid digit found in string"
  | .tooLarge => "number too large to fit in target type"

def NameFault.message : NameFault → String
  | .missingSeparator => "missing separator"
  | .offsetDigits => "offset must be 20 digits"
  | .timeDigits => "timestamp must be 14 digits"
  | .offset cause => cause.message
  | .timeOutOfRange => "input is out of range"

/-- A byte as two hexadecimal digits after `0x`. -/
def hexByte (byte : UInt8) : String :=
  "0x" ++ Bytes.toHex [byte]

def Corruption.message : Corruption → String
  | .selectorBits selector => s!"block selector {hexByte selector} has reserved bits set"
  | .blockLengths raw compressed => s!"block lengths {raw}/{compressed} exceed 4 bytes"
  | .payload => "block payload does not decompress"
  | .payloadLength actual declared => s!"decompressed {actual} bytes, header declares {declared}"
  | .entryLength cause => s!"entry length: {cause.message}"
  | .entryOverrun length available => s!"entry of {length} bytes, {available} left in block"
  | .undecodedTail topic decoded total =>
    s!"{topic}: only {decoded} of {total} bytes decode as whole blocks"
  | .storedOffset topic text cause =>
    s!"{topic}: offset file holds {Text.quoted text}: {cause.message}"
  | .other text => text

def Gap.message : Gap → String
  | .cursor topic next current offset =>
    s!"{topic}: segment {next} follows {current} but cursor is at offset {offset}"
  | .size topic current length next expected =>
    s!"{topic}: segment {current} holds {length} bytes, next segment {next} expects {expected}"
  | .other text => text

def SessionFault.message : SessionFault → String
  | .logGone topic cursor => s!"{topic}: tracker of cursor {cursor} is gone"
  | .alreadyRegistered topic => s!"topic {topic} is already registered"
  | .alreadyListening => "Sync service already running"
  | .gaveUp remote attempts => s!"giving up on {remote} after {attempts} attempts"
  | .replyTopic => "reply for a topic that is not UTF-8"
  | .unexpectedPublish => "unexpected PUBLISH from sync service"
  | .topicText => "topic is not valid UTF-8"
  | .noHandler => "no publish handler registered"
  | .other text => text

def WriterFault.message : WriterFault → String
  | .stopped => "writer thread stopped"
  | .other text => text

def SettingFlaw.message : SettingFlaw → String
  | .rollSize => "roll_size must be > 0"
  | .compressionLevel => "compression_level must be between 1 and 22"
  | .maxBuffer => "max_buffer_bytes must be > 0 and below 2 GiB"
  | .flushInterval => "flush_interval must be > 0"
  | .capacity => "channel_capacity must be > 0"
  | .chunkSize => "chunk_size must be between 1 and 1048576"
  | .serviceRollSize => "service_roll_size must be > 0"
  | .connectTimeout => "connect_timeout must be > 0"
  | .clientName => "client_name must not be empty"
  | .remoteAddress => "remote_addr must not be empty"
  | .delayOrder => "initial_delay must not exceed max_delay"
  | .multiplier => "backoff_multiplier must be >= 1.0"
  | .jitter => "jitter_factor must be between 0.0 and 1.0"

def SettingFault.message : SettingFault → String
  | .flaw setting => setting.message
  | .topicName name => s!"invalid topic name {Text.quoted name}"
  | .remoteMissing => "Remote address not configured"
  | .other text => text

/-- The wording of a fault, given the wording of I/O failures. -/
def Fault.messageWith (io : IoFault → String) : Fault → String
  | .io fault => s!"I/O error: {io fault}"
  | .segmentName name cause => s!"Invalid segment name: {name}: {cause.message}"
  | .segmentNameNote text => s!"Invalid segment name: {text}"
  | .corruption cause => s!"Corruption: {cause.message}"
  | .discontinuity cause => s!"Segment discontinuity: {cause.message}"
  | .invalidOffset offset maxOffset => s!"Invalid offset {offset}: max offset is {maxOffset}"
  | .offsetDeleted offset firstOffset =>
    s!"Offset {offset} was deleted: first available offset is {firstOffset}"
  | .wire fault => s!"Protocol error: {fault.messageWith io}"
  | .writer cause => s!"Writer error: {cause.message}"
  | .session cause => s!"Replication error: {cause.message}"
  | .setting cause => s!"Configuration error: {cause.message}"
  | .temporary text => s!"Retryable error: {text}"

/-- The wording of a fault, with system errors by number alone. -/
def Fault.message : Fault → String :=
  messageWith IoFault.message

/-- The wording of a fault, with system errors by name and number. -/
def Fault.namedMessage : Fault → String :=
  messageWith IoFault.namedMessage

end ReplicatedLog
