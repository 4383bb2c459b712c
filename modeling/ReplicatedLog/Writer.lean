import ReplicatedLog.Settings.Basic
import ReplicatedLog.Store.Basic

namespace ReplicatedLog

structure WriterStats where
  entriesAdded : Nat := 0
  blocksWritten : Nat := 0
  /-- The length of the entry data of the blocks written. -/
  rawBytes : Nat := 0
  /-- The length of the blocks written. -/
  storedBytes : Nat := 0
  /-- Blocks dropped because they could not be written. -/
  failedBlocks : Nat := 0
  deriving DecidableEq, Repr

/-- Counts the outcome of writing a block. -/
def WriterStats.count (stats : WriterStats) (raw : Bytes) : Except Fault Nat → WriterStats
  | .ok stored =>
    { stats with
      blocksWritten := stats.blocksWritten + 1
      rawBytes := stats.rawBytes + raw.length
      storedBytes := stats.storedBytes + stored }
  | .error _ => { stats with failedBlocks := stats.failedBlocks + 1 }

/-- Collects entries by topic and writes them to a store in blocks. -/
structure Writer where
  settings : WriterSettings := {}
  compress : Zstd.Compressor := Zstd.storing
  /-- The entry data of each topic that is not written yet. Which buffer lies where means nothing. -/
  buffers : List (String × Bytes) := []
  stats : WriterStats := {}

namespace Writer

/-- The entry data of a topic that is not written yet. -/
def buffer (writer : Writer) (topic : String) : Bytes :=
  (writer.buffers.lookup topic).getD []

/-- Changes the buffer of a topic, which is made behind the others if there is none. -/
def setBuffer (topic : String) (bytes : Bytes) : List (String × Bytes) → List (String × Bytes)
  | [] => [(topic, bytes)]
  | (other, kept) :: rest =>
    if other = topic then (topic, bytes) :: rest else (other, kept) :: setBuffer topic bytes rest

def bufferedBytes (writer : Writer) : Nat :=
  (writer.buffers.map (·.2.length)).foldr (· + ·) 0

/-- Adds the block of some entry data to the log of a topic, and tells its length. -/
def writeBlock (writer : Writer) (store : Store) (topic : String) (raw : Bytes) (now : Instant) :
    Except Fault Nat × Store :=
  match Block.frameBy writer.compress raw writer.settings.compressionLevel with
  | .error fault => (.error fault, store)
  | .ok block =>
    match store.append topic block writer.settings.rollSize now with
    | (.error fault, store) => (.error fault, store)
    | (.ok _, store) => (.ok block.length, store)

/-- Writes the buffer of a topic as one block, unless it is empty. A block that cannot be written
    is dropped. -/
def flushTopic (writer : Writer) (store : Store) (topic : String) (now : Instant) :
    Except Fault Unit × Writer × Store :=
  let raw := writer.buffer topic
  if raw.isEmpty then (.ok (), writer, store)
  else
    let (outcome, store) := writer.writeBlock store topic raw now
    let buffers := setBuffer topic [] writer.buffers
    (outcome.map fun _ => (),
      { writer with buffers, stats := writer.stats.count raw outcome }, store)

/-- Puts an entry into the buffer of a topic, which is written once it is full. -/
def add (writer : Writer) (store : Store) (topic : String) (entry : Bytes) (now : Instant) :
    Except Fault Unit × Writer × Store :=
  let buffer := writer.buffer topic ++ Entries.encodeOne entry
  let stats := { writer.stats with entriesAdded := writer.stats.entriesAdded + 1 }
  let writer := { writer with buffers := setBuffer topic buffer writer.buffers, stats }
  if writer.settings.maxBuffer ≤ buffer.length then writer.flushTopic store topic now
  else (.ok (), writer, store)

/-- Writes the buffers of topics one after the other and keeps the first fault. -/
def flushTopics (now : Instant) :
    (topics : List String) → Writer → Store → Except Fault Unit × Writer × Store
  | [], writer, store => (.ok (), writer, store)
  | topic :: rest, writer, store =>
    let (outcome, writer, store) := writer.flushTopic store topic now
    let (others, writer, store) := flushTopics now rest writer store
    ((match outcome with
      | .ok () => others
      | .error fault => .error fault), writer, store)

/-- Writes the buffers of all topics that have something in them, in the order in which the buffers
    happen to lie. -/
def flush (writer : Writer) (store : Store) (now : Instant) :
    Except Fault Unit × Writer × Store :=
  flushTopics now ((writer.buffers.filter fun entry => !entry.2.isEmpty).map (·.1)) writer store

end Writer

/-- A writer that runs on its own. Who adds an entry is not told what becomes of it. -/
structure BackgroundWriter where
  writer : Writer
  stopped : Bool := false

namespace BackgroundWriter

def start (settings : WriterSettings) : Except Fault BackgroundWriter :=
  match settings.validate with
  | .error flaw => .error (.setting (.flaw flaw))
  | .ok () => .ok { writer := { settings } }

def add (background : BackgroundWriter) (store : Store) (topic : String) (entry : Bytes)
    (now : Instant) : Except Fault Unit × BackgroundWriter × Store :=
  if background.stopped then (.error (.writer .stopped), background, store)
  else
    let (_, writer, store) := background.writer.add store topic entry now
    (.ok (), { background with writer }, store)

def flush (background : BackgroundWriter) (store : Store) (now : Instant) :
    Except Fault Unit × BackgroundWriter × Store :=
  if background.stopped then (.error (.writer .stopped), background, store)
  else
    let (outcome, writer, store) := background.writer.flush store now
    (outcome, { background with writer }, store)

/-- Writes what is buffered and stops. -/
def shutdown (background : BackgroundWriter) (store : Store) (now : Instant) :
    BackgroundWriter × Store :=
  if background.stopped then (background, store)
  else
    let (_, writer, store) := background.writer.flush store now
    ({ writer, stopped := true }, store)

end BackgroundWriter

end ReplicatedLog
