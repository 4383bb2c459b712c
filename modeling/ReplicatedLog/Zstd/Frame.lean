import ReplicatedLog.Digest.XxHash64
import ReplicatedLog.Zstd.Literals
import ReplicatedLog.Zstd.Sequences

namespace ReplicatedLog.Zstd

/-- The first bytes of a frame. -/
def magic : Bytes := [0x28, 0xb5, 0x2f, 0xfd]

/-- The last three of the first bytes of a frame that holds no data. -/
def skippableMagic : Bytes := [0x2a, 0x4d, 0x18]

/-- The most bytes a block holds. -/
def maxBlockLength : Nat := 128 * 1024

/-- The largest window that is decoded piece by piece. -/
def maxWindow : Nat := 0x8000000

/-- The largest window that a descriptor may stand for. -/
def maxWindowLog : Nat := 31

/-- The most bytes of a frame that is decoded in one piece. -/
def maxSmallLength : Nat := 8 * 1024

/-- What stands in front of the blocks of a frame. -/
structure FrameHeader where
  window : Nat
  contentLength : Option Nat
  hasChecksum : Bool
  deriving DecidableEq, Repr

namespace FrameHeader

/-- The most bytes a block of the frame holds. -/
def blockLimit (header : FrameHeader) : Nat :=
  min header.window maxBlockLength

/-- A frame that announces so few bytes is decoded in one piece. Its window does not matter then,
    and of its blocks only the compressed ones are held to the limit. -/
def isSmall (header : FrameHeader) : Bool :=
  header.contentLength.any (· ≤ maxSmallLength)

/-- The window that a descriptor byte stands for: a power of two and some eighths of it. -/
def windowOf (descriptor : Nat) : Nat :=
  let base := Nat.pow 2 (10 + descriptor / 8)
  base + base / 8 * (descriptor % 8)

/-- Reads `width` bytes, least significant first. -/
def field? (width : Nat) (bytes : Bytes) : Option (Nat × Bytes) :=
  if bytes.length < width then none
  else some (Bytes.toNatLE (bytes.take width), bytes.drop width)

/-- The width of the content length, by the top bits of the descriptor. -/
def contentWidth (code : Nat) (whole : Bool) : Nat :=
  match code with
  | 0 => if whole then 1 else 0
  | 1 => 2
  | 2 => 4
  | _ => 8

/-- Reads a header behind the magic bytes. Frames that need a dictionary are refused. -/
def read? (bytes : Bytes) : Option (FrameHeader × Bytes) := do
  let (descriptor, rest) ← field? 1 bytes
  if descriptor / 8 % 2 = 1 then none
  else
    let whole := descriptor / 32 % 2 == 1
    let code := descriptor / 64
    let (window, rest) ← field? (if whole then 0 else 1) rest
    let (dictionary, rest) ← field? (match descriptor % 4 with | 3 => 4 | width => width) rest
    let width := contentWidth code whole
    let (length, rest) ← field? width rest
    let content := if width = 0 then none else if width = 2 then some (length + 256) else some length
    let header : FrameHeader :=
      ⟨if whole then content.getD 0 else windowOf window, content, descriptor / 4 % 2 == 1⟩
    let tooLarge := maxWindowLog < 10 + window / 8 ∨ (maxWindow < header.window ∧ !header.isSmall)
    if dictionary ≠ 0 ∨ tooLarge then none else some (header, rest)

end FrameHeader

/-- What a block leaves for the blocks behind it in the frame. -/
structure Context where
  code : Option PrefixCode := none
  tables : SequenceTables := {}
  recent : RecentOffsets := {}

/-- Decodes a compressed block behind `out`. An empty one stands for no data, except in a small
    frame, where it is refused. -/
def decodeBlock (header : FrameHeader) (context : Context) (block : Bytes) (out : Array UInt8) :
    Option (Context × Array UInt8) :=
  if block.isEmpty ∧ !header.isSmall then some (context, out)
  else do
    let literals ← Literals.read? header.blockLimit context.code block
    let sequences ← SequenceSection.read? context.tables context.recent literals.rest
    let decoded ← execute sequences.sequences literals.bytes out
    if header.blockLimit < decoded.size - out.size ∧ !header.isSmall then none
    else some (⟨literals.code, sequences.tables, sequences.recent⟩, decoded)

/-- The three bytes in front of a block. -/
structure BlockHead where
  isLast : Bool
  kind : Nat
  size : Nat

namespace BlockHead

def ofBytes (bytes : Bytes) : BlockHead :=
  let head := Bytes.toNatLE bytes
  ⟨head % 2 == 1, head / 2 % 4, head / 8⟩

def toBytes (head : BlockHead) : Bytes :=
  Bytes.ofNatLE 3 (head.isLast.toNat + head.kind * 2 + head.size * 8)

/-- The number of bytes between this head and the next. -/
def stored (head : BlockHead) : Nat :=
  if head.kind = 1 then 1 else head.size

/-- A block larger than the frame allows. -/
def exceeds (head : BlockHead) (header : FrameHeader) : Bool :=
  header.blockLimit < head.size && (head.kind == 2 || !header.isSmall)

/-- The data of a block behind `out`: as it is, one byte repeated, or compressed. -/
def decode (head : BlockHead) (header : FrameHeader) (context : Context) (block : Bytes)
    (out : Array UInt8) : Option (Context × Array UInt8) :=
  match head.kind with
  | 0 => some (context, out ++ block)
  | 1 => some (context, out ++ List.replicate head.size (block.headD 0))
  | 2 => decodeBlock header context block out
  | _ => none

end BlockHead

/-- Decodes the blocks of a frame behind `out`, up to the last one, and gives the bytes behind
    it. -/
def decodeBlocks (header : FrameHeader) (context : Context) (out : Array UInt8) (bytes : Bytes) :
    Option (Array UInt8 × Bytes) :=
  let head := BlockHead.ofBytes (bytes.take 3)
  let rest := bytes.drop 3
  if bytes.length < 3 ∨ rest.length < head.stored ∨ head.exceeds header then none
  else
    match head.decode header context (rest.take head.stored) out with
    | none => none
    | some (context, out) =>
      if head.isLast then some (out, rest.drop head.stored)
      else decodeBlocks header context out (rest.drop head.stored)
termination_by bytes.length
decreasing_by
  simp only [List.length_drop]
  omega

/-- Decodes one frame behind the magic bytes. -/
def decodeFrame (bytes : Bytes) : Option (Bytes × Bytes) := do
  let (header, rest) ← FrameHeader.read? bytes
  let (out, rest) ← decodeBlocks header {} #[] rest
  let content := out.toList
  if header.contentLength.any (· ≠ content.length) then none
  else if header.hasChecksum then
    if rest.take 4 = Bytes.ofNatLE 4 (XxHash64.hash content).toNat then some (content, rest.drop 4)
    else none
  else some (content, rest)

/-- The bytes behind a frame that holds no data. -/
def skipFrame (bytes : Bytes) : Option Bytes := do
  let (size, rest) ← FrameHeader.field? 4 bytes
  if rest.length < size then none else some (rest.drop size)

/-- Decodes frames, at most `count` of them, until the bytes end. -/
def decodeFrames : (count : Nat) → Bytes → Option Bytes
  | 0, _ => none
  | count + 1, bytes => do
    let (content, rest) ←
      if bytes.take 4 = magic then decodeFrame (bytes.drop 4)
      else if (bytes.drop 1).take 3 = skippableMagic ∧ (bytes.headD 0).toNat / 16 = 5 then
        (skipFrame (bytes.drop 4)).map fun rest => ([], rest)
      else none
    if rest.isEmpty then some content
    else
      let more ← decodeFrames count rest
      some (content ++ more)

/-- The data of one or more frames that take up the whole of `bytes`. Each frame takes at least
    one byte. -/
def decompress (bytes : Bytes) : Option Bytes :=
  decodeFrames bytes.length bytes

end ReplicatedLog.Zstd
