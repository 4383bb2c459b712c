import ReplicatedLog.Proofs.Block.Stream

namespace ReplicatedLog

/-- Lengths that make a header fit its fields. -/
theorem BlockHeader.fits_of_create {raw compressed : Nat} {header : BlockHeader}
    (hcreate : create raw compressed = .ok header) : Fits ⟨raw, compressed⟩ := by
  unfold create at hcreate
  split at hcreate
  next => cases hcreate
  next hnarrow =>
    obtain ⟨hraw, hcompressed⟩ := not_or.mp hnarrow
    have hbound : ∀ length, ¬ maxWidth < FixedWidth.width length → length < 2 ^ 32 := by
      intro length hwidth
      have hpow : 256 ^ maxWidth = 2 ^ 32 := by decide
      rw [← hpow]
      exact (FixedWidth.lt_pow_width length).trans_le
        (Nat.pow_le_pow_right (by omega) (not_lt.mp hwidth))
    exact ⟨hbound raw hraw, hbound compressed hcompressed⟩

/-- A block of readable entries, and its bytes. -/
structure WrittenBlock (compress : Zstd.Compressor) where
  raw : Bytes
  level : Int
  bytes : Bytes
  entries : List Bytes
  framed : Block.frameBy compress raw level = .ok bytes
  decoded : Entries.decode raw = (entries, none)

namespace WrittenBlock

variable {compress : Zstd.Compressor}

/-- What is read back. -/
def block (written : WrittenBlock compress) : Block :=
  Block.framed compress written.level written.raw

/-- The bytes of blocks in a row. -/
def contents (blocks : List (WrittenBlock compress)) : Bytes :=
  blocks.flatMap (·.bytes)

theorem fits (written : WrittenBlock compress) : written.block.header.Fits := by
  have hframed := written.framed
  simp only [Block.frameBy, bind, Except.bind] at hframed
  cases hcreate :
      BlockHeader.create written.raw.length (compress written.level written.raw).length with
  | error fault => simp [hcreate] at hframed
  | ok header => exact BlockHeader.fits_of_create hcreate

theorem bytes_eq (written : WrittenBlock compress) :
    written.bytes = Block.framedBytes compress written.level written.raw :=
  Except.ok.inj (written.framed.symm.trans (Block.frameBy_eq written.fits))

theorem length_bytes (written : WrittenBlock compress) :
    written.bytes.length = written.block.frameLength := by
  rw [bytes_eq, Block.length_framedBytes]
  rfl

theorem entries_block (written : WrittenBlock compress) :
    written.block.entries = (written.entries, none) :=
  written.decoded

theorem contents_append (blocks more : List (WrittenBlock compress)) :
    contents (blocks ++ more) = contents blocks ++ contents more :=
  List.flatMap_append

theorem readAll_contents (hlossless : Zstd.Lossless compress) (blocks : List (WrittenBlock compress)) :
    Block.readAll (contents blocks) = (blocks.map block, none, []) := by
  induction blocks with
  | nil => exact Block.readAll_of_none (show Block.read [] = (.ok none, []) from rfl)
  | cons first rest ih =>
    have hfirst := Block.read_framedBytes_append hlossless first.fits (contents rest)
    rw [contents, List.flatMap_cons, bytes_eq, ← contents, Block.readAll_of_block hfirst, ih]
    rfl

theorem length_contents (blocks : List (WrittenBlock compress)) :
    (contents blocks).length = ((blocks.map block).map Block.frameLength).sum := by
  rw [contents, List.length_flatMap, List.map_map]
  exact congrArg List.sum (List.map_congr_left fun written _ => written.length_bytes)

/-- Behind the first `count` blocks the others follow. -/
theorem contents_drop (blocks : List (WrittenBlock compress)) (count : Nat) :
    (contents blocks).drop (contents (blocks.take count)).length = contents (blocks.drop count) := by
  have hsplit : contents blocks = contents (blocks.take count) ++ contents (blocks.drop count) := by
    rw [← contents_append, List.take_append_drop]
  rw [hsplit, List.drop_left]

end WrittenBlock

end ReplicatedLog
