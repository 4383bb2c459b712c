import ReplicatedLog.Log.Basic

namespace ReplicatedLog.StoredLog

/-- Deletes segments from the front while `gate` has passed them and they were created at least
    `retain` nanoseconds ago. The last segment stays. -/
def dropSealed (retain gate : Nat) (now : Instant) :
    List Segment → Directory → Except Fault Unit × List Segment × Directory
  | oldest :: next :: rest, dir =>
    let kept := (oldest :: next :: rest, dir)
    if gate < next.offset then (.ok (), kept)
    else
      match oldest.created with
      | .error fault => (.error fault, kept)
      | .ok created =>
        if now.age created < retain then (.ok (), kept)
        else
          match dir.discard oldest.name with
          | .error fault => (.error (.io fault), kept)
          | .ok dir => dropSealed retain gate now (next :: rest) dir
  | segments, dir => (.ok (), segments, dir)

def cleanupSealed (stored : StoredLog) (retain gate : Nat) (now : Instant) :
    Except Fault Unit × StoredLog :=
  let (outcome, segments, dir) := dropSealed retain gate now stored.log.segments stored.dir
  (outcome, { dir, log := { stored.log with segments } })

/-- Removes the empty directory of a log without segments. -/
def removeDirectory (stored : StoredLog) : Except Fault Bool × StoredLog :=
  match stored.dir.discardEmpty with
  | .error fault => (.error (.io fault), stored)
  | .ok dir => (.ok true, { stored with dir })

/-- Deletes old segments that every reader has passed. Tells whether the log had no segments, so
    that its directory was removed. -/
def cleanup (stored : StoredLog) (retain : Nat) (now : Instant) : Except Fault Bool × StoredLog :=
  if stored.log.segments.isEmpty then stored.removeDirectory
  else
    let (outcome, stored) := stored.cleanupSealed retain stored.log.gate now
    (outcome.map fun _ => false, stored)

/-- Deletes a last segment that has not changed for `retain` nanoseconds, and the directory with
    it. -/
def dropLast (stored : StoredLog) (last : Segment) (retain : Nat) (now : Instant) :
    Except Fault Bool × StoredLog :=
  match stored.dir.file last.name with
  | .error fault => (.error (.io fault), stored)
  | .ok file =>
    if now.nanosSince file.modified < retain then (.ok false, stored)
    else
      match stored.dir.discard last.name with
      | .error fault => (.error (.io fault), stored)
      | .ok dir =>
        removeDirectory { dir, log := { stored.log with segments := [], active := none } }

/-- Deletes old segments as `cleanup` does, but also waits for `external`, the offset below which
    all is known to be safe elsewhere, and may delete the last segment. Tells whether the
    directory was removed. -/
def cleanupAll (stored : StoredLog) (retain external : Nat) (now : Instant) :
    Except Fault Bool × StoredLog :=
  if stored.log.segments.isEmpty then stored.removeDirectory
  else
    let gate := min stored.log.gate external
    match stored.cleanupSealed retain gate now with
    | (.error fault, stored) => (.error fault, stored)
    | (.ok (), stored) =>
      match stored.log.segments with
      | [last] => if gate < stored.log.maxOffset then (.ok false, stored)
        else stored.dropLast last retain now
      | _ => (.ok false, stored)

end ReplicatedLog.StoredLog
