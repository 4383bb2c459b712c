import ReplicatedLog.Block.Codec
import ReplicatedLog.Digest.Sha512
import ReplicatedLog.Log.Basic

namespace ReplicatedLog

/-- The bytes of segments back to back, from `position` in the first one and at most `budget` of
    them, and the fault at which they end early. A file is opened only when it is needed. -/
def chain (dir : Directory) : (segments : List Segment) → (position budget : Nat) →
    Bytes × Option IoFault
  | [], _, _ => ([], none)
  | segment :: rest, position, budget =>
    if budget = 0 then ([], none)
    else
      match dir.file segment.name with
      | .error fault => ([], some fault)
      | .ok file =>
        let part := (file.bytes.drop position).take budget
        let (more, fault) := chain dir rest 0 (budget - part.length)
        (part ++ more, fault)

namespace Cursor

/-- The bytes between a cursor and the end of the log, as far as files hold them. -/
def remaining (cursor : Cursor) (dir : Directory) : Bytes × Option IoFault :=
  chain dir cursor.segments cursor.position (cursor.maxOffset - cursor.offset)

end Cursor

namespace Block

/-- Shows every entry to `visit`, up to its first fault. -/
def visitEntries {σ : Type} (visit : σ → Bytes → Except Fault σ) :
    List Bytes → σ → Except Fault Unit × σ
  | [], state => (.ok (), state)
  | entry :: rest, state =>
    match visit state entry with
    | .error fault => (.error fault, state)
    | .ok state => visitEntries visit rest state

/-- Shows the entries of a row of blocks to `visit` and counts the bytes of the whole blocks. Ends
    at the first block that is not complete; there, `fault` tells why bytes are missing. With
    `once` it ends behind the first block. -/
def visitAll {σ : Type} (visit : σ → Bytes → Except Fault σ) (once : Bool)
    (fault : Option IoFault) (bytes : Bytes) (state : σ) : Except Fault Nat × σ :=
  match hread : Block.read bytes with
  | (.error fault, _) => (.error fault, state)
  | (.ok none, _) =>
    match fault with
    | some fault => (.error (.io fault), state)
    | none => (.ok 0, state)
  | (.ok (some block), rest) =>
    have := Block.length_read_lt hread
    let (entries, flaw) := block.entries
    match visitEntries visit entries state with
    | (.error fault, state) => (.error fault, state)
    | (.ok (), state) =>
      match flaw with
      | some flaw => (.error flaw, state)
      | none =>
        if once then (.ok block.frameLength, state)
        else
          let (count, state) := visitAll visit once fault rest state
          (count.map (block.frameLength + ·), state)
termination_by bytes.length

end Block

namespace Cursor

/-- Shows the entries from a cursor on to `visit`, and tells how many bytes may be consumed. The
    cursor does not move. -/
def visitEntries {σ : Type} (cursor : Cursor) (dir : Directory)
    (visit : σ → Bytes → Except Fault σ) (once : Bool) (state : σ) : Except Fault Nat × σ :=
  let (bytes, fault) := cursor.remaining dir
  Block.visitAll visit once fault bytes state

end Cursor

/-- A summary of the entries of a log. -/
structure Checksum where
  /-- The SHA-512 of all entries back to back. -/
  digest : Bytes
  entries : Nat
  /-- The number of bytes of the blocks that hold them. -/
  bytes : Nat
  deriving DecidableEq, Repr

namespace Cursor

/-- Sums up the entries behind a cursor, which moves over them. They have to reach to the end of
    the log. -/
def checksum (topic : String) (dir : Directory) (cursor : Cursor) :
    Except Fault Checksum × Cursor :=
  let collect : List Bytes → Bytes → Except Fault (List Bytes) :=
    fun entries entry => .ok (entry :: entries)
  match cursor.visitEntries dir collect false [] with
  | (.error fault, _) => (.error fault, cursor)
  | (.ok bytes, entries) =>
    match cursor.consume topic dir bytes with
    | (.error fault, moved) => (.error fault, moved)
    | (.ok (), moved) =>
      if moved.offset ≠ moved.maxOffset then
        (.error (.corruption (.undecodedTail topic moved.offset moved.maxOffset)), moved)
      else
        (.ok { digest := Sha512.digest entries.reverse.flatten, entries := entries.length, bytes },
          moved)

end Cursor

namespace StoredLog

/-- The entries from the oldest segment on, up to the first fault, and whether they make up the
    whole log. -/
def entries (stored : StoredLog) : List Bytes × Except Fault Bool :=
  let log := stored.log
  match Cursor.place log.segments log.maxOffset log.firstOffset with
  | .error fault => ([], .error fault)
  | .ok cursor =>
    let (count, entries) :=
      cursor.visitEntries stored.dir (fun entries entry => .ok (entry :: entries)) false []
    (entries.reverse, count.map fun bytes => log.firstOffset + bytes = log.maxOffset)

/-- Sums up the entries from the oldest segment on, by a reader that is registered meanwhile. -/
def takeChecksum (stored : StoredLog) : Except Fault Checksum × StoredLog :=
  match stored.log.addReader "checksum" stored.log.firstOffset with
  | .error fault => (.error fault, stored)
  | .ok (id, log) =>
    let (outcome, stored) := onReader { stored with log } id fun topic dir cursor =>
      cursor.checksum topic dir
    (outcome, { stored with log := stored.log.removeReader id })

/-- The sum of the entries from the oldest segment on. The whole log has to be readable. -/
def checksum (stored : StoredLog) : Except Fault Checksum :=
  stored.takeChecksum.1

end StoredLog

end ReplicatedLog
