import ReplicatedLog.Block.Codec
import ReplicatedLog.Proofs.Wire.Packet
import ReplicatedLog.Proofs.Zstd.Storing

namespace ReplicatedLog

namespace BlockHeader

variable {selector : UInt8} {fields : Bytes} {header : BlockHeader}

/-- A selector tells the narrowest fields for the lengths of a header. -/
def Narrow (selector : UInt8) (header : BlockHeader) : Prop :=
  header.rawWidth = selectedRawWidth selector ∧
    header.compressedWidth = selectedCompressedWidth selector

/-- Whole header fields are as narrow as can be, and where fields are cut short, the high bits of the
    selector are zero. -/
def Canonical : Bytes → Prop
  | [] => True
  | selector :: fields =>
    if fields.length < selectedWidth selector then selector.toNat < 16
    else ∀ header, ofFields selector fields = .ok header → Narrow selector header

theorem canonical_of_cut (hcut : fields.length < selectedWidth selector) :
    Canonical (selector :: fields) ↔ selector.toNat < 16 := by
  rw [Canonical, if_pos hcut]

theorem canonical_of_whole (hwhole : selectedWidth selector ≤ fields.length)
    (hfields : ofFields selector fields = .ok header) :
    Canonical (selector :: fields) ↔ Narrow selector header := by
  rw [Canonical, if_neg (Nat.not_lt.mpr hwhole)]
  constructor
  · intro hcanonical
    exact hcanonical header hfields
  · intro hnarrow other hother
    rw [hfields] at hother
    rwa [← Except.ok.inj hother]

/-- A selector leaves its lengths enough room. -/
theorem widths_le_of_ofFields (hfields : ofFields selector fields = .ok header) :
    header.rawWidth ≤ selectedRawWidth selector ∧
      header.compressedWidth ≤ selectedCompressedWidth selector := by
  have hfits : ∀ {width : Nat} (bytes : Bytes), 1 ≤ width →
      FixedWidth.width (Bytes.toNatBE (bytes.take width)) ≤ width := by
    intro width bytes hwidth
    refine FixedWidth.width_le (lt_of_lt_of_le (Bytes.toNatBE_lt _) ?_) hwidth
    exact Nat.pow_le_pow_right (by decide) (List.length_take_le _ _)
  rw [ofFields] at hfields
  by_cases hhigh : 16 ≤ selector.toNat
  · rw [if_pos hhigh] at hfields
    contradiction
  · rw [if_neg hhigh] at hfields
    obtain rfl := Except.ok.inj hfields
    exact ⟨hfits _ (Nat.le_add_left _ _), hfits _ (Nat.le_add_left _ _)⟩

/-- Fields as narrow as can be are those that make up the length of the header. -/
theorem encodedLength_eq_iff (hfields : ofFields selector fields = .ok header) :
    header.encodedLength = 1 + selectedWidth selector ↔ Narrow selector header := by
  obtain ⟨hraw, hcompressed⟩ := widths_le_of_ofFields hfields
  rw [encodedLength, selectedWidth, Narrow]
  omega

theorem decode_of_cut (hcut : fields.length < selectedWidth selector)
    (hlow : selector.toNat < 16) : decode (selector :: fields) = .ok none := by
  rw [decode, if_neg (Nat.not_le.mpr hlow), if_pos hcut]

theorem decode_of_whole (hwhole : selectedWidth selector ≤ fields.length) :
    decode (selector :: fields) = (ofFields selector fields).map some := by
  rw [decode]
  by_cases hhigh : 16 ≤ selector.toNat
  · rw [if_pos hhigh, ofFields, if_pos hhigh]
    rfl
  · rw [if_neg hhigh, if_neg (Nat.not_lt.mpr hwhole)]

end BlockHeader

namespace Block

open BlockHeader

variable {selector : UInt8} {fields bytes rest payload : Bytes} {header : BlockHeader} {block : Block}

theorem header_of_decompress (hblock : decompress header payload = .ok block) :
    block.header = header ∧ block.data.length = header.raw := by
  rw [decompress] at hblock
  split at hblock
  next => contradiction
  next data =>
    split at hblock
    next hlength =>
      obtain rfl := Except.ok.inj hblock
      exact ⟨rfl, hlength⟩
    next => contradiction

theorem read_of_cut (hcut : fields.length < selectedWidth selector) :
    read (selector :: fields) = (.ok none, []) := by
  rw [read, if_pos hcut]

theorem read_of_fault {fault : Fault} (hwhole : selectedWidth selector ≤ fields.length)
    (hfields : ofFields selector fields = .error fault) :
    read (selector :: fields) = (.error fault, fields.drop (selectedWidth selector)) := by
  rw [read, if_neg (Nat.not_lt.mpr hwhole)]
  simp only [hfields]

/-- The payload is read behind the fields that the selector tells. -/
theorem read_of_header (hwhole : selectedWidth selector ≤ fields.length)
    (hfields : ofFields selector fields = .ok header) :
    read (selector :: fields) =
      let behind := fields.drop (selectedWidth selector)
      if behind.length < header.compressed then (.ok none, [])
      else ((decompress header (behind.take header.compressed)).map some,
        behind.drop header.compressed) := by
  rw [read, if_neg (Nat.not_lt.mpr hwhole)]
  simp only [hfields]

/-- The payload is decoded behind a header as narrow as can be. -/
theorem decode_of_header (hheader : BlockHeader.decode bytes = .ok (some header)) :
    decode bytes =
      if bytes.length < header.frameLength then .ok none
      else (decompress header ((bytes.drop header.encodedLength).take header.compressed)).map some := by
  rw [decode, hheader]
  simp only [bind, Except.bind]
  split
  · rfl
  · cases decompress header ((bytes.drop header.encodedLength).take header.compressed) <;> rfl

/-- What was read for a block: a header and the payload behind its fields. -/
theorem exists_of_read (hread : read bytes = (.ok (some block), rest)) :
    ∃ selector fields, bytes = selector :: fields ∧ selectedWidth selector ≤ fields.length ∧
      ofFields selector fields = .ok block.header ∧
      selectedWidth selector + block.header.compressed ≤ fields.length ∧
      rest = fields.drop (selectedWidth selector + block.header.compressed) := by
  cases bytes with
  | nil => simp [read] at hread
  | cons selector fields =>
    rcases Nat.lt_or_ge fields.length (selectedWidth selector) with hcut | hwhole
    · simp [read_of_cut hcut] at hread
    · cases hfields : ofFields selector fields with
      | error fault => simp [read_of_fault hwhole hfields] at hread
      | ok header =>
        rw [read_of_header hwhole hfields] at hread
        dsimp only at hread
        split at hread
        next => simp at hread
        next henough =>
          obtain ⟨hmap, hrest⟩ := Prod.mk.inj hread
          cases hblock : decompress header
              ((fields.drop (selectedWidth selector)).take header.compressed) with
          | error fault =>
            rw [hblock] at hmap
            contradiction
          | ok found =>
            rw [hblock] at hmap
            obtain rfl := Option.some.inj (Except.ok.inj hmap)
            obtain ⟨hsame, _⟩ := header_of_decompress hblock
            rw [List.length_drop] at henough
            refine ⟨selector, fields, rfl, hwhole, hsame ▸ hfields, ?_, ?_⟩
            · rw [hsame]
              omega
            · rw [hsame, ← hrest, List.drop_drop]

/-- The length of a block that was read is what was read for it just where its fields are as narrow as
    can be. -/
theorem frameLength_add_length_iff (hread : read bytes = (.ok (some block), rest)) :
    block.frameLength + rest.length = bytes.length ↔ Canonical bytes := by
  obtain ⟨selector, fields, rfl, hwhole, hfields, henough, rfl⟩ := exists_of_read hread
  rw [canonical_of_whole hwhole hfields, ← encodedLength_eq_iff hfields, frameLength,
    BlockHeader.frameLength, List.length_drop, List.length_cons]
  omega

/-- The length of a block that was read is never more than what was read for it. -/
theorem frameLength_add_length_le (hread : read bytes = (.ok (some block), rest)) :
    block.frameLength + rest.length ≤ bytes.length := by
  obtain ⟨selector, fields, rfl, hwhole, hfields, henough, rfl⟩ := exists_of_read hread
  obtain ⟨hraw, hcompressed⟩ := widths_le_of_ofFields hfields
  rw [frameLength, BlockHeader.frameLength, BlockHeader.encodedLength, List.length_drop,
    List.length_cons]
  unfold selectedWidth at henough ⊢
  omega

theorem decode_eq_read (hcanonical : Canonical bytes) : decode bytes = (read bytes).1 := by
  cases bytes with
  | nil => rfl
  | cons selector fields =>
    rcases Nat.lt_or_ge fields.length (selectedWidth selector) with hcut | hwhole
    · have hlow := (canonical_of_cut hcut).mp hcanonical
      rw [read_of_cut hcut, decode, decode_of_cut hcut hlow]
      rfl
    · cases hfields : ofFields selector fields with
      | error fault =>
        rw [read_of_fault hwhole hfields, decode, decode_of_whole hwhole, hfields]
        rfl
      | ok header =>
        have hheader : BlockHeader.decode (selector :: fields) = .ok (some header) := by
          rw [decode_of_whole hwhole, hfields]
          rfl
        have hnarrow := (canonical_of_whole hwhole hfields).mp hcanonical
        have hlength := (encodedLength_eq_iff hfields).mpr hnarrow
        -- both payloads start at the same place
        have hplace : (selector :: fields).drop header.encodedLength =
            fields.drop (selectedWidth selector) := by
          rw [hlength, Nat.add_comm, List.drop_succ_cons]
        have hmissing : (selector :: fields).length < header.frameLength ↔
            (fields.drop (selectedWidth selector)).length < header.compressed := by
          rw [BlockHeader.frameLength, hlength, List.length_cons, List.length_drop]
          omega
        rw [read_of_header hwhole hfields, decode_of_header hheader, hplace]
        by_cases hshort : (fields.drop (selectedWidth selector)).length < header.compressed
        · rw [if_pos (hmissing.mpr hshort), if_pos hshort]
        · rw [if_neg (fun hless => hshort (hmissing.mp hless)), if_neg hshort]

/-- Where no length field is wider than it need be, a block decoded in place is the block read from a
    stream, and the next block is as many bytes on as the length of the block tells. -/
theorem decoders_agree (hcanonical : Canonical bytes) :
    decode bytes = (read bytes).1 ∧
      ∀ block rest, read bytes = (.ok (some block), rest) →
        block.frameLength + rest.length = bytes.length ∧ rest = bytes.drop block.frameLength := by
  refine ⟨decode_eq_read hcanonical, ?_⟩
  intro block rest hread
  have hlength := (frameLength_add_length_iff hread).mpr hcanonical
  refine ⟨hlength, ?_⟩
  obtain ⟨selector, fields, rfl, hwhole, hfields, henough, rfl⟩ := exists_of_read hread
  have hnarrow := (encodedLength_eq_iff hfields).mpr ((canonical_of_whole hwhole hfields).mp hcanonical)
  have hframe : block.frameLength = selectedWidth selector + block.header.compressed + 1 := by
    rw [frameLength, BlockHeader.frameLength, hnarrow]
    omega
  rw [hframe, List.drop_succ_cons]

/-- The payload of a block without entries. -/
theorem decompress_empty :
    decompress ⟨0, 9⟩ [0x28, 0xb5, 0x2f, 0xfd, 0x00, 0x38, 0x01, 0x00, 0x00] = .ok ⟨⟨0, 9⟩, []⟩ := by
  have hstored : [0x28, 0xb5, 0x2f, 0xfd, 0x00, 0x38, 0x01, 0x00, 0x00] = Zstd.compress [] := by
    decide +kernel
  rw [decompress, hstored, Zstd.decompress_compress]
  rfl

/-- A block without entries. -/
theorem read_empty :
    read [0x00, 0x00, 0x09, 0x28, 0xb5, 0x2f, 0xfd, 0x00, 0x38, 0x01, 0x00, 0x00] =
      (.ok (some ⟨⟨0, 9⟩, []⟩), []) := by
  have hread : read [0x00, 0x00, 0x09, 0x28, 0xb5, 0x2f, 0xfd, 0x00, 0x38, 0x01, 0x00, 0x00] =
      ((decompress ⟨0, 9⟩ [0x28, 0xb5, 0x2f, 0xfd, 0x00, 0x38, 0x01, 0x00, 0x00]).map some, []) := rfl
  rw [hread, decompress_empty]
  rfl

/-- A block without entries, with one byte behind it. -/
theorem decoders_agree_on_narrow_fields :
    Canonical [0x00, 0x00, 0x09, 0x28, 0xb5, 0x2f, 0xfd, 0x00, 0x38, 0x01, 0x00, 0x00, 0x07] ∧
      decode [0x00, 0x00, 0x09, 0x28, 0xb5, 0x2f, 0xfd, 0x00, 0x38, 0x01, 0x00, 0x00, 0x07] =
        .ok (some ⟨⟨0, 9⟩, []⟩) ∧
      frameLength ⟨⟨0, 9⟩, []⟩ = 12 := by
  have hwhole : selectedWidth 0x00 ≤
      [0x00, 0x09, 0x28, 0xb5, 0x2f, 0xfd, 0x00, 0x38, 0x01, 0x00, 0x00, (0x07 : UInt8)].length := by
    decide
  have hfields : ofFields 0x00
      [0x00, 0x09, 0x28, 0xb5, 0x2f, 0xfd, 0x00, 0x38, 0x01, 0x00, 0x00, 0x07] = .ok ⟨0, 9⟩ := rfl
  have hcanonical := (canonical_of_whole hwhole hfields).mpr ⟨by decide, by decide⟩
  have hread : read
      [0x00, 0x00, 0x09, 0x28, 0xb5, 0x2f, 0xfd, 0x00, 0x38, 0x01, 0x00, 0x00, 0x07] =
        ((decompress ⟨0, 9⟩ [0x28, 0xb5, 0x2f, 0xfd, 0x00, 0x38, 0x01, 0x00, 0x00]).map some, [0x07]) :=
    rfl
  rw [decompress_empty] at hread
  obtain ⟨hsame, hlength⟩ := decoders_agree hcanonical
  refine ⟨hcanonical, hsame.trans (congrArg Prod.fst hread), ?_⟩
  have hframe := (hlength _ _ hread).1
  rw [List.length_singleton] at hframe
  exact Nat.add_right_cancel hframe

/-- A raw length of zero in two bytes. The payload is read whole but sought one byte too early in place,
    and the block that was read tells one byte less than were read. A selector with high bits set that
    nothing follows is a fault in place and the end of a stream. -/
theorem decoders_part :
    (decode [0x04, 0x00, 0x00, 0x09, 0x28, 0xb5, 0x2f, 0xfd, 0x00, 0x38, 0x01, 0x00, 0x00] =
        .error (.corruption .payload) ∧
      read [0x04, 0x00, 0x00, 0x09, 0x28, 0xb5, 0x2f, 0xfd, 0x00, 0x38, 0x01, 0x00, 0x00] =
        (.ok (some ⟨⟨0, 9⟩, []⟩), []) ∧
      frameLength ⟨⟨0, 9⟩, []⟩ = 12) ∧
    decode [0x10] = .error (.corruption (.selectorBits 0x10)) ∧ read [0x10] = (.ok none, []) := by
  have hread : read [0x04, 0x00, 0x00, 0x09, 0x28, 0xb5, 0x2f, 0xfd, 0x00, 0x38, 0x01, 0x00, 0x00] =
      ((decompress ⟨0, 9⟩ [0x28, 0xb5, 0x2f, 0xfd, 0x00, 0x38, 0x01, 0x00, 0x00]).map some, []) := rfl
  rw [decompress_empty] at hread
  exact ⟨⟨rfl, hread, rfl⟩, rfl, rfl⟩

end Block

end ReplicatedLog
