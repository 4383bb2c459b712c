import ReplicatedLog.Disk.Directory
import ReplicatedLog.Segment.Basic

namespace ReplicatedLog

/-- A reading position in a log. It holds its own list of the segments still to be read, the
    current one first. -/
structure Cursor where
  segments : List Segment := []
  /-- The offset in the log of the next byte. -/
  offset : Nat := 0
  /-- The position of that byte in the current segment. -/
  position : Nat := 0
  /-- Where the current segment ends in the log, as far as is known. -/
  boundary : Nat := 0
  /-- Where the log ends, as far as is known. -/
  maxOffset : Nat := 0
  deriving DecidableEq, Repr

/-- Bytes of one segment: from where in its file, how many, and the log offset of the first. -/
structure Region where
  segment : Segment
  position : Nat
  length : Nat
  offset : Nat
  deriving DecidableEq, Repr

namespace Cursor

/-- The end of the current segment: the start of the next one, or the end of the log. -/
def segmentEnd (segments : List Segment) (maxOffset : Nat) : Nat :=
  match segments with
  | _ :: next :: _ => next.offset
  | _ => maxOffset

/-- The bytes left in the current segment. -/
def available (cursor : Cursor) : Nat :=
  if cursor.segments.isEmpty then 0 else cursor.boundary - cursor.offset

/-- The segments from the last one on that starts at or before `offset`. -/
def segmentsFrom (offset : Nat) : List Segment → List Segment
  | first :: next :: rest =>
    if next.offset ≤ offset then segmentsFrom offset (next :: rest) else first :: next :: rest
  | segments => segments

/-- A cursor at `offset` of a log. Fails beyond the end of the log and before its first
    segment. -/
def place (segments : List Segment) (maxOffset offset : Nat) : Except Fault Cursor :=
  if maxOffset < offset then .error (.invalidOffset offset maxOffset)
  else
    let segments := segmentsFrom offset segments
    let first := (segments.head?.map (·.offset)).getD maxOffset
    if offset < first then .error (.offsetDeleted offset first)
    else .ok
      { segments, offset, position := offset - first, boundary := segmentEnd segments maxOffset
        maxOffset }

/-- Moves from an exhausted segment to the next one, which has to start at the cursor, behind a
    file as long as the two starts are apart. A file that is gone was cleaned up meanwhile. The
    segment left behind stays dropped also where the move fails. -/
def nextSegment (topic : String) (dir : Directory) (cursor : Cursor) :
    Except Fault Unit × Cursor :=
  match cursor.segments with
  | current :: next :: rest =>
    let left := { cursor with segments := next :: rest }
    if next.offset ≠ cursor.offset then
      (.error (.discontinuity (.cursor topic next.name current.name cursor.offset)), left)
    else
      let expected := next.offset - current.offset
      match dir.size? current.name with
      | .error fault => (.error (.io fault), left)
      | .ok size =>
        if size.getD expected ≠ expected then
          (.error (.discontinuity
            (.size topic current.name (size.getD expected) next.name expected)), left)
        else
          (.ok (), { left with
            position := 0, boundary := segmentEnd (next :: rest) cursor.maxOffset })
  | _ => (.ok (), cursor)

theorem length_nextSegment_lt {topic : String} {dir : Directory} {cursor moved : Cursor}
    {outcome : Except Fault Unit} (hnext : nextSegment topic dir cursor = (outcome, moved))
    (hlength : 1 < cursor.segments.length) : moved.segments.length < cursor.segments.length := by
  unfold nextSegment at hnext
  split at hnext
  next current next rest hsegments =>
    have hmoved : moved.segments = next :: rest := by
      dsimp only at hnext
      split at hnext
      · rw [← (Prod.mk.inj hnext).2]
      · split at hnext
        · rw [← (Prod.mk.inj hnext).2]
        · split at hnext <;> rw [← (Prod.mk.inj hnext).2]
    rw [hmoved, hsegments]
    simp
  next hother =>
    cases hsegments : cursor.segments with
    | nil => simp [hsegments] at hlength
    | cons current rest =>
      cases rest with
      | nil => simp [hsegments] at hlength
      | cons next rest => exact absurd hsegments (hother current next rest)

/-- Whether bytes are left to read, moving to the next segment where one is exhausted. -/
def hasMore (topic : String) (dir : Directory) (cursor : Cursor) : Except Fault Bool × Cursor :=
  if 0 < cursor.available then (.ok true, cursor)
  else if hlength : cursor.segments.length ≤ 1 then (.ok false, cursor)
  else
    match hnext : nextSegment topic dir cursor with
    | (.error fault, moved) => (.error fault, moved)
    | (.ok (), moved) =>
      have := length_nextSegment_lt hnext (by omega)
      hasMore topic dir moved
termination_by cursor.segments.length

/-- Moves over bytes of the current segment. -/
def skip (cursor : Cursor) (length : Nat) : Cursor :=
  { cursor with offset := cursor.offset + length, position := cursor.position + length }

/-- Moves over `length` bytes, from segment to segment. -/
def walk (topic : String) (dir : Directory) (cursor : Cursor) (length : Nat) :
    Except Fault Unit × Cursor :=
  let step := min cursor.available length
  let skipped := cursor.skip step
  let left := length - step
  if left = 0 then (.ok (), skipped)
  else if hlength : cursor.segments.length ≤ 1 then
    (.error (.invalidOffset (skipped.offset + left) cursor.maxOffset), skipped)
  else
    match hnext : nextSegment topic dir skipped with
    | (.error fault, moved) => (.error fault, moved)
    | (.ok (), moved) =>
      have : moved.segments.length < (cursor.skip step).segments.length :=
        length_nextSegment_lt hnext (by simpa [skipped, skip] using hlength)
      walk topic dir moved left
termination_by cursor.segments.length
decreasing_by exact this

/-- Gives up `length` bytes, which have to lie before the end of the log, and enters the next
    segment where they end the current one. -/
def consume (topic : String) (dir : Directory) (cursor : Cursor) (length : Nat) :
    Except Fault Unit × Cursor :=
  let stop := cursor.offset + length
  if cursor.maxOffset < stop then
    (.error (.invalidOffset (min stop Decimal.maxValue) cursor.maxOffset), cursor)
  else
    match walk topic dir cursor length with
    | (.error fault, moved) => (.error fault, moved)
    | (.ok (), moved) =>
      if moved.available = 0 ∧ 1 < moved.segments.length then nextSegment topic dir moved
      else (.ok (), moved)

/-- The bytes at the cursor, at most `limit` of them, none at the end of the log. -/
def nextRegion (topic : String) (dir : Directory) (cursor : Cursor) (limit : Nat) :
    Except Fault (Option Region) × Cursor :=
  match hasMore topic dir cursor with
  | (.error fault, moved) => (.error fault, moved)
  | (.ok false, moved) => (.ok none, moved)
  | (.ok true, moved) =>
    (.ok (moved.segments.head?.map fun segment =>
      { segment, position := moved.position, length := min moved.available limit
        offset := moved.offset }), moved)

/-- Consumes region after region, each of at most `limit` bytes, up to the end of the log, to a
    fault or to the given number of regions. -/
def drain (topic : String) (dir : Directory) (limit : Nat) :
    (count : Nat) → Cursor → (List Region × Option Fault) × Cursor
  | 0, cursor => (([], none), cursor)
  | count + 1, cursor =>
    match cursor.nextRegion topic dir limit with
    | (.error fault, cursor) => (([], some fault), cursor)
    | (.ok none, cursor) => (([], none), cursor)
    | (.ok (some region), cursor) =>
      match cursor.consume topic dir region.length with
      | (.error fault, cursor) => (([], some fault), cursor)
      | (.ok (), cursor) =>
        let ((regions, fault), cursor) := drain topic dir limit count cursor
        ((region :: regions, fault), cursor)

/-- Takes note of a segment added behind the others. -/
def addSegment (segment : Segment) (cursor : Cursor) : Cursor :=
  let segments := cursor.segments ++ [segment]
  { cursor with
    segments
    position := if cursor.segments.isEmpty then cursor.offset - segment.offset else cursor.position
    boundary := segmentEnd segments cursor.maxOffset }

/-- Takes note of bytes added to the log. -/
def addBytes (length : Nat) (cursor : Cursor) : Cursor :=
  let maxOffset := cursor.maxOffset + length
  { cursor with
    maxOffset
    boundary := if cursor.segments.length ≤ 1 then maxOffset else cursor.boundary }

end Cursor

end ReplicatedLog
