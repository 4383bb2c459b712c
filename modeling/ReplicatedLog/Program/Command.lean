import ReplicatedLog.Disk.Volume
import ReplicatedLog.Program.Settings

namespace ReplicatedLog

inductive Command
  /-- Compares the logs below two root directories. -/
  | check (left right : String)
  /-- Stores what a client publishes on the standard input. -/
  | serve
  /-- Replicates all logs, with the lines of the standard input for one topic. -/
  | sync (remote feed : Option String)
  deriving DecidableEq, Repr

namespace Command

/-- The command that words ask for, and the files named behind it, each as `root/topic/name`. -/
def ofWords? : List String → Option (Command × List String)
  | "check" :: left :: right :: files => some (.check left right, files)
  | "serve" :: files => some (.serve, files)
  | "sync" :: "--remote" :: remote :: "--stdin-topic" :: topic :: files =>
    some (.sync (some remote) (some topic), files)
  | "sync" :: "--remote" :: remote :: files => some (.sync (some remote) none, files)
  | "sync" :: "--stdin-topic" :: topic :: files => some (.sync none (some topic), files)
  | "sync" :: files => some (.sync none none, files)
  | _ => none

def usage : List String :=
  ["usage: check LEFT RIGHT [FILE...]", "       serve [FILE...]",
    "       sync [--remote ROOT] [--stdin-topic TOPIC] [FILE...]"]

end Command

/-- What the path of a file names below a root directory. -/
def pathBelow? (root path : String) : Option (List String) :=
  (path.dropPrefix? (root ++ "/")).map fun rest => rest.toString.splitOn "/"

/-- The logs below a root directory, out of files with their paths. -/
def Volume.ofFiles (root : String) (files : List (String × Bytes)) (now : Instant) : Volume :=
  files.foldl (fun volume file =>
    match pathBelow? root file.1 with
    | some [topic, name] => volume.putFile topic name file.2 now
    | _ => volume) {}

/-- The files in the directories of all topics, with their paths below the root. -/
def Volume.files (volume : Volume) : List (String × String × Bytes) :=
  volume.topics.flatMap fun topic =>
    let items := (volume.directory topic).items.toOption.getD []
    items.files.map fun (name, file) => (topic, name, file.bytes)

/-- The files directly in a directory, out of files with their paths. -/
def Directory.ofFiles (root : String) (files : List (String × Bytes)) (now : Instant) :
    Directory :=
  files.foldl (fun dir file =>
    match pathBelow? root file.1 with
    | some [name] => dir.putFile name file.2 now
    | _ => dir) {}

end ReplicatedLog
