import ReplicatedLog.Checkpoint

namespace ReplicatedLog

/-- Someone who is told up to which offset a topic is replicated. -/
inductive Sink
  /-- Keeps the last offset of each topic in a file. -/
  | checkpoints (dir : Directory)
  /-- Keeps all it was told, in order. It refuses some calls, by their numbers from 1 on. -/
  | journal (told : List (String × Nat)) (calls : Nat) (refused : List Nat)
  deriving DecidableEq, Repr

namespace Sink

/-- The directory of a sink that keeps offsets in files. -/
def directory? : Sink → Option Directory
  | .checkpoints dir => some dir
  | .journal .. => none

/-- What a sink that keeps a list was told. -/
def told? : Sink → Option (List (String × Nat))
  | .checkpoints _ => none
  | .journal told .. => some told

def store (sink : Sink) (topic : String) (offset : Nat) (now : Instant) :
    Except Fault Unit × Sink :=
  match sink with
  | .checkpoints dir =>
    let (outcome, dir) := Checkpoint.store dir topic offset now
    (outcome, .checkpoints dir)
  | .journal told calls refused =>
    if refused.contains (calls + 1) then
      (.error (.writer (.other "store")), .journal told (calls + 1) refused)
    else (.ok (), .journal (told ++ [(topic, offset)]) (calls + 1) refused)

/-- Tells one after the other, up to the first that fails. -/
def storeAll (topic : String) (offset : Nat) (now : Instant) :
    List Sink → Except Fault Unit × List Sink
  | [] => (.ok (), [])
  | sink :: rest =>
    match sink.store topic offset now with
    | (.error fault, sink) => (.error fault, sink :: rest)
    | (.ok (), sink) =>
      let (outcome, rest) := storeAll topic offset now rest
      (outcome, sink :: rest)

end Sink

end ReplicatedLog
