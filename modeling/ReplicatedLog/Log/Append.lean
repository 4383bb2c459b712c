import ReplicatedLog.Log.Basic

namespace ReplicatedLog

/-- The outcome of adding bytes at a claimed offset. -/
inductive AppendResult
  | appended (maxOffset : Nat)
  /-- The log does not end at the claimed offset; nothing was added. -/
  | mismatch (maxOffset : Nat)
  deriving DecidableEq, Repr

namespace StoredLog

/-- The segments of a directory, and the offset at which the last of them ends. Offsets have 64 bits,
    so an end beyond them is found at the start again. -/
def scan (dir : Directory) : Except Fault (List Segment × Nat) := do
  let files ← dir.listing.mapError Fault.io
  let segments ← files.mapM fun entry => Segment.ofName entry.1
  let last := (segments.getLast?.map (·.offset)).getD 0
  let size := (files.getLast?.map (·.2.bytes.length)).getD 0
  .ok (segments, (last + size) % (Decimal.maxValue + 1))

/-- Reads the segments of the directory again. Readers keep what they know. -/
def reload (stored : StoredLog) : Except Fault StoredLog := do
  let (segments, maxOffset) ← scan stored.dir
  .ok { stored with log := { stored.log with segments, maxOffset } }

/-- The log of a topic, as its directory holds it. -/
def ofDirectory (topic : String) (dir : Directory) : Except Fault StoredLog :=
  reload ⟨{ topic }, dir⟩

/-- Makes the file of a segment that starts at `offset`. -/
def createSegment (dir : Directory) (offset : Nat) (now : Instant) :
    Except Fault Segment × Directory :=
  let name := SegmentName.encode offset now
  match dir.openFile name now with
  | .error fault => (.error (.io fault), dir)
  | .ok (_, dir) => (Segment.ofName name, dir)

/-- The last segment, if it starts at the end of the log and its file is empty. -/
def emptyLast? (log : TopicLog) (dir : Directory) : Except Fault (Option Segment) :=
  match log.segments.getLast? with
  | none => .ok none
  | some last =>
    if last.offset = log.maxOffset then
      match dir.size last.name with
      | .error fault => .error (.io fault)
      | .ok size => .ok (if size = 0 then some last else none)
    else .ok none

/-- Starts a new segment at the end of the log. An empty last segment serves as the new one, as
    two segments cannot start at one offset. -/
def roll (stored : StoredLog) (now : Instant) : Except Fault Segment × StoredLog :=
  match stored.dir.make with
  | (.error fault, dir) => (.error (.io fault), { stored with dir })
  | (.ok (), dir) =>
    match emptyLast? stored.log dir with
    | .error fault => (.error fault, { stored with dir })
    | .ok (some last) => (.ok last, { stored with dir })
    | .ok none =>
      match createSegment dir stored.log.maxOffset now with
      | (.error fault, dir) => (.error fault, { stored with dir })
      | (.ok segment, dir) => (.ok segment, { log := stored.log.addSegment segment, dir })

/-- Starts a log without segments at `offset`, and moves its readers there. Without effect where
    there are segments or the log already reaches the offset. -/
def resumeAt (stored : StoredLog) (offset : Nat) (now : Instant) :
    Except Fault Unit × StoredLog :=
  if stored.log.segments ≠ [] ∨ offset ≤ stored.log.maxOffset then (.ok (), stored)
  else
    match stored.dir.make with
    | (.error fault, dir) => (.error (.io fault), { stored with dir })
    | (.ok (), dir) =>
      match createSegment dir offset now with
      | (.error fault, dir) => (.error fault, { stored with dir })
      | (.ok segment, dir) =>
        let cursor : Cursor :=
          { segments := [segment], offset, position := 0, boundary := offset, maxOffset := offset }
        (.ok (), { dir, log := { stored.log.mapCursors fun _ => cursor with
          segments := [segment], maxOffset := offset } })

/-- The segment to add bytes to: the last one while it is no longer than `rollSize`, else a new
    one. -/
def activeSegment (stored : StoredLog) (rollSize : Nat) (now : Instant) :
    Except Fault Segment × StoredLog :=
  match stored.log.segments.getLast? with
  | none => stored.roll now
  | some last =>
    match stored.dir.size last.name with
    | .error fault => (.error (.io fault), stored)
    | .ok size => if size ≤ rollSize then (.ok last, stored) else stored.roll now

/-- Opens the file of a segment, unless it is the one already open under that name. -/
def openSegment (stored : StoredLog) (segment : Segment) (now : Instant) :
    Except Fault (Nat × StoredLog) :=
  match stored.log.active.filter fun active => active.name = segment.name with
  | some active => .ok (active.file, stored)
  | none =>
    match stored.dir.openFile segment.name now with
    | .error fault => .error (.io fault)
    | .ok (file, dir) =>
      .ok (file, { dir, log := { stored.log with active := some ⟨segment.name, file⟩ } })

/-- Adds bytes at the end of the log and tells its new end. -/
def append (stored : StoredLog) (data : Bytes) (rollSize : Nat) (now : Instant) :
    Except Fault Nat × StoredLog :=
  match stored.activeSegment rollSize now with
  | (.error fault, stored) => (.error fault, stored)
  | (.ok segment, stored) =>
    match stored.openSegment segment now with
    | .error fault => (.error fault, stored)
    | .ok (file, stored) =>
      let log := stored.log.addBytes data.length
      (.ok log.maxOffset, { log, dir := stored.dir.extend file data now })

/-- Adds bytes only if the log ends at `offset`. -/
def appendAt (stored : StoredLog) (offset : Nat) (data : Bytes) (rollSize : Nat) (now : Instant) :
    Except Fault AppendResult × StoredLog :=
  if offset ≠ stored.log.maxOffset then (.ok (.mismatch stored.log.maxOffset), stored)
  else if data.isEmpty then (.ok (.appended stored.log.maxOffset), stored)
  else
    let (outcome, stored) := stored.append data rollSize now
    (outcome.map .appended, stored)

end StoredLog

end ReplicatedLog
