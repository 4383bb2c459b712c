import ReplicatedLog.Block.Entries
import ReplicatedLog.Block.Header
import ReplicatedLog.Zstd.Writer

namespace ReplicatedLog

/-- A decoded block. -/
structure Block where
  header : BlockHeader
  /-- The entry data. -/
  data : Bytes
  deriving DecidableEq, Repr

namespace Block

def frameLength (block : Block) : Nat :=
  block.header.frameLength

/-- The entries, and the fault at which they end early. -/
def entries (block : Block) : List Bytes × Option Fault :=
  Entries.decode block.data

/-- The block of some entry data, compressed at a level. Fails where a length does not fit its
    field. -/
def frameBy (compress : Zstd.Compressor) (raw : Bytes) (level : Int) : Except Fault Bytes := do
  let payload := compress level raw
  let header ← BlockHeader.create raw.length payload.length
  .ok (header.encode ++ payload)

/-- The block of some entry data, stored as it is. -/
def frame (raw : Bytes) (level : Int) : Except Fault Bytes :=
  frameBy Zstd.storing raw level

/-- Decompresses a payload to the length that its header tells. -/
def decompress (header : BlockHeader) (payload : Bytes) : Except Fault Block :=
  match Zstd.decompress payload with
  | none => .error (.corruption .payload)
  | some data =>
    if data.length = header.raw then .ok ⟨header, data⟩
    else .error (.corruption (.payloadLength data.length header.raw))

/-- Decodes the block at the front of `bytes`, with the payload behind a header as short as can
    be; none while it is not complete. -/
def decode (bytes : Bytes) : Except Fault (Option Block) := do
  match ← BlockHeader.decode bytes with
  | none => .ok none
  | some header =>
    if bytes.length < header.frameLength then .ok none
    else
      let block ← decompress header ((bytes.drop header.encodedLength).take header.compressed)
      .ok (some block)

/-- Reads the next block and gives the bytes behind it. Bytes that are not a complete block are
    used up. -/
def read (bytes : Bytes) : Except Fault (Option Block) × Bytes :=
  match bytes with
  | [] => (.ok none, [])
  | selector :: rest =>
    let width := BlockHeader.selectedWidth selector
    if rest.length < width then (.ok none, [])
    else
      let payload := rest.drop width
      match BlockHeader.ofFields selector rest with
      | .error fault => (.error fault, payload)
      | .ok header =>
        if payload.length < header.compressed then (.ok none, [])
        else ((decompress header (payload.take header.compressed)).map some,
          payload.drop header.compressed)

theorem length_read_lt {bytes rest : Bytes} {block : Block}
    (hread : read bytes = (.ok (some block), rest)) : rest.length < bytes.length := by
  unfold read at hread
  split at hread
  · simp at hread
  · dsimp only at hread
    split at hread
    · simp at hread
    · split at hread
      · simp at hread
      · split at hread
        · simp at hread
        · obtain ⟨_, rfl⟩ := Prod.mk.inj hread
          simp only [List.length_drop, List.length_cons]
          omega

/-- Every block in a row of them, the fault at which they end early, and the bytes not read. -/
def readAll (bytes : Bytes) : List Block × Option Fault × Bytes :=
  match hread : read bytes with
  | (.error fault, rest) => ([], some fault, rest)
  | (.ok none, rest) => ([], none, rest)
  | (.ok (some block), rest) =>
    have := length_read_lt hread
    let (blocks, fault, rest) := readAll rest
    (block :: blocks, fault, rest)
termination_by bytes.length

end Block

end ReplicatedLog
