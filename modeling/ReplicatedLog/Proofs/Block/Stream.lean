import ReplicatedLog.Proofs.Block.Decoders
import ReplicatedLog.Proofs.Block.Entries

namespace ReplicatedLog

namespace BlockHeader

variable {header : BlockHeader} {cut rest : Bytes}

/-- Both lengths have room in the widest fields. -/
structure Fits (header : BlockHeader) : Prop where
  raw : header.raw < 2 ^ 32
  compressed : header.compressed < 2 ^ 32

/-- The fields behind the selector. -/
def fields (header : BlockHeader) : Bytes :=
  Bytes.ofNatBE header.rawWidth header.raw ++ Bytes.ofNatBE header.compressedWidth header.compressed

theorem encode_eq (header : BlockHeader) : header.encode = header.selector :: header.fields :=
  rfl

theorem length_fields (header : BlockHeader) :
    header.fields.length = header.rawWidth + header.compressedWidth := by
  rw [fields, List.length_append, Bytes.length_ofNatBE, Bytes.length_ofNatBE]

theorem length_encode (header : BlockHeader) : header.encode.length = header.encodedLength := by
  rw [encode_eq, List.length_cons, length_fields, encodedLength]
  omega

namespace Fits

theorem widths (hfits : header.Fits) :
    (1 ≤ header.rawWidth ∧ header.rawWidth ≤ maxWidth) ∧
      1 ≤ header.compressedWidth ∧ header.compressedWidth ≤ maxWidth := by
  have hpow : 256 ^ maxWidth = 2 ^ 32 := by decide
  refine ⟨⟨FixedWidth.width_pos _, ?_⟩, FixedWidth.width_pos _, ?_⟩
  · exact FixedWidth.width_le (hpow ▸ hfits.raw) (by decide)
  · exact FixedWidth.width_le (hpow ▸ hfits.compressed) (by decide)

theorem create_eq (hfits : header.Fits) : create header.raw header.compressed = .ok header := by
  obtain ⟨⟨_, hraw⟩, _, hcompressed⟩ := hfits.widths
  rw [create, if_neg]
  rintro (hwide | hwide)
  · exact Nat.not_le.mpr hwide hraw
  · exact Nat.not_le.mpr hwide hcompressed

theorem selector_toNat (hfits : header.Fits) :
    header.selector.toNat = (header.rawWidth - 1) * 4 + (header.compressedWidth - 1) := by
  obtain ⟨⟨_, hraw⟩, _, hcompressed⟩ := hfits.widths
  rw [maxWidth] at hraw hcompressed
  rw [selector, UInt8.toNat_ofNat']
  omega

theorem selector_lt (hfits : header.Fits) : header.selector.toNat < 16 := by
  obtain ⟨⟨_, hraw⟩, _, hcompressed⟩ := hfits.widths
  rw [maxWidth] at hraw hcompressed
  rw [hfits.selector_toNat]
  omega

theorem narrow (hfits : header.Fits) : Narrow header.selector header := by
  obtain ⟨⟨hrawPos, hraw⟩, hcompressedPos, hcompressed⟩ := hfits.widths
  rw [maxWidth] at hraw hcompressed
  rw [Narrow, selectedRawWidth, selectedCompressedWidth, hfits.selector_toNat]
  omega

theorem selectedWidth_eq (hfits : header.Fits) :
    selectedWidth header.selector = header.fields.length := by
  obtain ⟨hraw, hcompressed⟩ := hfits.narrow
  rw [selectedWidth, length_fields, hraw, hcompressed]

/-- The lengths are read back in front of anything. -/
theorem ofFields_eq (hfits : header.Fits) (rest : Bytes) :
    ofFields header.selector (header.fields ++ rest) = .ok header := by
  obtain ⟨hraw, hcompressed⟩ := hfits.narrow
  have hrawField := Bytes.length_ofNatBE header.rawWidth header.raw
  have hcompressedField := Bytes.length_ofNatBE header.compressedWidth header.compressed
  rw [ofFields, if_neg (Nat.not_le.mpr hfits.selector_lt), ← hraw, ← hcompressed, fields,
    List.append_assoc]
  dsimp only
  rw [List.take_left' hrawField, List.drop_left' hrawField, List.take_left' hcompressedField]
  have hrawBack : Bytes.toNatBE (Bytes.ofNatBE header.rawWidth header.raw) = header.raw :=
    Bytes.toNatBE_ofNatBE (FixedWidth.lt_pow_width header.raw)
  have hcompressedBack :
      Bytes.toNatBE (Bytes.ofNatBE header.compressedWidth header.compressed) = header.compressed :=
    Bytes.toNatBE_ofNatBE (FixedWidth.lt_pow_width header.compressed)
  rw [hrawBack, hcompressedBack]

/-- Where a header and what is behind it are cut: in front of everything, inside the header, or behind
    it. -/
theorem cut_cases (hfits : header.Fits) (hcut : cut <+: header.encode ++ rest) :
    cut = [] ∨
    (∃ fields, cut = header.selector :: fields ∧ fields.length < selectedWidth header.selector) ∨
    ∃ behind, cut = header.selector :: (header.fields ++ behind) ∧ behind <+: rest := by
  rw [encode_eq, List.cons_append] at hcut
  rcases List.prefix_cons_iff.mp hcut with hnil | ⟨fields, rfl, hfields⟩
  · exact .inl hnil
  · right
    rw [hfits.selectedWidth_eq]
    rcases Nat.lt_or_ge fields.length header.fields.length with hshort | hwhole
    · exact .inl ⟨fields, rfl, hshort⟩
    · right
      obtain ⟨behind, rfl⟩ :=
        List.prefix_of_prefix_length_le (List.prefix_append header.fields rest) hfields hwhole
      exact ⟨behind, rfl, (List.prefix_append_right_inj _).mp hfields⟩

/-- A header is written with fields as narrow as can be. -/
theorem canonical_of_prefix (hfits : header.Fits) (hcut : cut <+: header.encode ++ rest) :
    Canonical cut := by
  obtain rfl | ⟨fields, rfl, hshort⟩ | ⟨behind, rfl, _⟩ := hfits.cut_cases hcut
  · trivial
  · exact (canonical_of_cut hshort).mpr hfits.selector_lt
  · have hwhole : selectedWidth header.selector ≤ (header.fields ++ behind).length := by
      rw [hfits.selectedWidth_eq, List.length_append]
      omega
    exact (canonical_of_whole hwhole (hfits.ofFields_eq behind)).mpr hfits.narrow

end Fits

end BlockHeader

namespace Block

open BlockHeader

variable {compress : Zstd.Compressor} {level : Int} {raw cut bytes : Bytes} {header : BlockHeader}
  {raws : List Bytes}

/-- The block that some data is framed as. -/
def framed (compress : Zstd.Compressor) (level : Int) (raw : Bytes) : Block :=
  ⟨⟨raw.length, (compress level raw).length⟩, raw⟩

/-- The bytes of the block that some data is framed as. -/
def framedBytes (compress : Zstd.Compressor) (level : Int) (raw : Bytes) : Bytes :=
  (framed compress level raw).header.encode ++ compress level raw

theorem length_framedBytes (compress : Zstd.Compressor) (level : Int) (raw : Bytes) :
    (framedBytes compress level raw).length = (framed compress level raw).frameLength := by
  rw [framedBytes, List.length_append, length_encode]
  rfl

/-- A block is far from as long as offsets reach. -/
theorem length_framedBytes_le (hfits : (framed compress level raw).header.Fits) :
    (framedBytes compress level raw).length ≤ Decimal.maxValue := by
  have hlength : (framedBytes compress level raw).length =
      (framed compress level raw).header.frameLength := length_framedBytes compress level raw
  obtain ⟨⟨-, hraw⟩, -, hcompressed⟩ := hfits.widths
  have hpayload := hfits.compressed
  rw [hlength, BlockHeader.frameLength, BlockHeader.encodedLength]
  rw [BlockHeader.maxWidth] at hraw hcompressed
  rw [Decimal.maxValue]
  omega

theorem frameBy_eq (hfits : (framed compress level raw).header.Fits) :
    frameBy compress raw level = .ok (framedBytes compress level raw) := by
  have hcreate : BlockHeader.create raw.length (compress level raw).length =
      .ok (framed compress level raw).header := hfits.create_eq
  simp only [frameBy, hcreate, bind, Except.bind]
  rfl

/-- A block behind a header that is there whole. -/
theorem read_encode_append (hfits : header.Fits) (behind : Bytes) :
    read (header.encode ++ behind) =
      if behind.length < header.compressed then (.ok none, [])
      else ((decompress header (behind.take header.compressed)).map some,
        behind.drop header.compressed) := by
  have hwidth := hfits.selectedWidth_eq
  have hwhole : selectedWidth header.selector ≤ (header.fields ++ behind).length := by
    rw [hwidth, List.length_append]
    omega
  rw [encode_eq, List.cons_append, read_of_header hwhole (hfits.ofFields_eq behind), hwidth]
  dsimp only
  rw [List.drop_left]

/-- A block that was framed is read back in front of anything. -/
theorem read_framedBytes_append (hlossless : Zstd.Lossless compress)
    (hfits : (framed compress level raw).header.Fits) (rest : Bytes) :
    read (framedBytes compress level raw ++ rest) =
      (.ok (some (framed compress level raw)), rest) := by
  have hpayload : (compress level raw).length = (framed compress level raw).header.compressed := rfl
  have henough : ¬ (compress level raw ++ rest).length < (framed compress level raw).header.compressed := by
    rw [← hpayload, List.length_append]
    omega
  have hdecompress : decompress (framed compress level raw).header (compress level raw) =
      .ok (framed compress level raw) := by
    rw [decompress, hlossless level raw]
    exact if_pos rfl
  rw [framedBytes, List.append_assoc, read_encode_append hfits, if_neg henough,
    List.take_left' hpayload, List.drop_left' hpayload, hdecompress]
  rfl

theorem decode_framedBytes_append (hlossless : Zstd.Lossless compress)
    (hfits : (framed compress level raw).header.Fits) (rest : Bytes) :
    decode (framedBytes compress level raw ++ rest) = .ok (some (framed compress level raw)) := by
  have hcanonical : Canonical (framedBytes compress level raw ++ rest) := by
    rw [framedBytes, List.append_assoc]
    exact hfits.canonical_of_prefix List.prefix_rfl
  rw [decode_eq_read hcanonical, read_framedBytes_append hlossless hfits]

/-- A block that was cut short is the end of a stream. -/
theorem read_of_proper_prefix (hfits : (framed compress level raw).header.Fits)
    (hcut : cut <+: framedBytes compress level raw) (hproper : cut ≠ framedBytes compress level raw) :
    read cut = (.ok none, []) := by
  obtain rfl | ⟨fields, rfl, hshort⟩ | ⟨behind, rfl, hbehind⟩ := hfits.cut_cases hcut
  · rfl
  · exact read_of_cut hshort
  · have hmissing : behind.length < (framed compress level raw).header.compressed := by
      apply lt_of_le_of_ne hbehind.length_le
      intro hlength
      apply hproper
      rw [hbehind.eq_of_length hlength]
      rfl
    rw [← List.cons_append, ← encode_eq, read_encode_append hfits, if_pos hmissing]

theorem decode_of_proper_prefix (hfits : (framed compress level raw).header.Fits)
    (hcut : cut <+: framedBytes compress level raw) (hproper : cut ≠ framedBytes compress level raw) :
    decode cut = .ok none := by
  rw [decode_eq_read (hfits.canonical_of_prefix hcut), read_of_proper_prefix hfits hcut hproper]

section ReadAll

theorem readAll_of_none {rest : Bytes} (hread : read bytes = (.ok none, rest)) :
    readAll bytes = ([], none, rest) := by
  rw [readAll]
  split
  next hother => simp [hread] at hother
  next hother =>
    rw [hread] at hother
    rw [(Prod.mk.inj hother).2]
  next hother => simp [hread] at hother

theorem readAll_of_block {block : Block} {rest : Bytes}
    (hread : read bytes = (.ok (some block), rest)) :
    readAll bytes = (block :: (readAll rest).1, (readAll rest).2) := by
  rw [readAll]
  split
  next hother => simp [hread] at hother
  next hother => simp [hread] at hother
  next hother =>
    rw [hread] at hother
    obtain ⟨hsame, rfl⟩ := Prod.mk.inj hother
    obtain rfl := Option.some.inj (Except.ok.inj hsame)
    rfl

/-- Blocks in a row are read back up to where no block is any more. -/
theorem readAll_framedBytes_append (hlossless : Zstd.Lossless compress)
    (hfits : ∀ raw ∈ raws, (framed compress level raw).header.Fits)
    (hcut : read cut = (.ok none, [])) :
    readAll ((raws.map (framedBytes compress level)).flatten ++ cut) =
      (raws.map (framed compress level), none, []) := by
  induction raws with
  | nil => exact readAll_of_none hcut
  | cons first rest ih =>
    have hrest := ih fun raw hmem => hfits raw (List.mem_cons_of_mem _ hmem)
    rw [List.map_cons, List.flatten_cons, List.append_assoc,
      readAll_of_block (read_framedBytes_append hlossless (hfits first List.mem_cons_self) _), hrest]
    rfl

/-- At the start of every block the block is decoded, and behind the last one none is. -/
theorem decode_framedBytes_drop (hlossless : Zstd.Lossless compress)
    (hfits : ∀ raw ∈ raws, (framed compress level raw).header.Fits) (hcut : decode cut = .ok none)
    (index : Nat) :
    decode (((raws.map (framedBytes compress level)).drop index).flatten ++ cut) =
      .ok (raws.map (framed compress level))[index]? := by
  induction raws generalizing index with
  | nil => simpa using hcut
  | cons first rest ih =>
    cases index with
    | zero =>
      rw [List.drop_zero, List.map_cons, List.flatten_cons, List.append_assoc,
        decode_framedBytes_append hlossless (hfits first List.mem_cons_self)]
      rfl
    | succ index => exact ih (fun raw hmem => hfits raw (List.mem_cons_of_mem _ hmem)) index

end ReadAll

section Lists

variable {lists : List (List Bytes)} {last : List Bytes} {whole : Bytes}

theorem mapM_frameBy
    (hfits : ∀ entries ∈ lists, (framed compress level (Entries.encode entries)).header.Fits) :
    lists.mapM (fun entries => frameBy compress (Entries.encode entries) level) =
      .ok ((lists.map Entries.encode).map (framedBytes compress level)) := by
  induction lists with
  | nil => rfl
  | cons first rest ih =>
    have hfirst := frameBy_eq (hfits first List.mem_cons_self)
    have hrest := ih fun entries hmem => hfits entries (List.mem_cons_of_mem _ hmem)
    simp only [List.mapM_cons, hfirst, hrest, bind, Except.bind, pure, Except.pure, List.map_cons]

theorem entries_framed {list : List Bytes}
    (hfits : (framed compress level (Entries.encode list)).header.Fits) :
    (framed compress level (Entries.encode list)).entries = (list, none) := by
  have hmax : 2 ^ 32 ≤ Decimal.maxValue := by decide
  exact Entries.decode_encode (hfits.raw.le.trans hmax)

/-- Lists of entries are framed as blocks in a row, and one more block is cut short behind them. The
    blocks are read back with their entries and their lengths, in place and from the stream, up to the
    cut one, which is incomplete for both decoders. -/
theorem readAll_frames (hlossless : Zstd.Lossless compress) (level : Int) (lists : List (List Bytes))
    (last : List Bytes)
    (hfits : ∀ entries ∈ last :: lists,
      (framed compress level (Entries.encode entries)).header.Fits)
    (hwhole : frameBy compress (Entries.encode last) level = .ok whole)
    (hcut : cut <+: whole) (hproper : cut ≠ whole) :
    ∃ frames blocks,
      lists.mapM (fun entries => frameBy compress (Entries.encode entries) level) = .ok frames ∧
      readAll (frames.flatten ++ cut) = (blocks, none, []) ∧
      blocks.map entries = lists.map (fun entries => (entries, none)) ∧
      blocks.map (fun block => block.header.raw) =
        lists.map (fun entries => (Entries.encode entries).length) ∧
      blocks.map frameLength = frames.map List.length ∧
      (∀ index, decode ((frames.drop index).flatten ++ cut) = .ok blocks[index]?) ∧
      decode cut = .ok none ∧ read cut = (.ok none, []) := by
  have hlast := hfits last List.mem_cons_self
  have hlists : ∀ entries ∈ lists, (framed compress level (Entries.encode entries)).header.Fits :=
    fun entries hmem => hfits entries (List.mem_cons_of_mem _ hmem)
  have hraws : ∀ raw ∈ lists.map Entries.encode, (framed compress level raw).header.Fits := by
    intro raw hmem
    obtain ⟨entries, hentries, rfl⟩ := List.mem_map.mp hmem
    exact hlists entries hentries
  obtain rfl := Except.ok.inj ((frameBy_eq hlast).symm.trans hwhole)
  have hread := read_of_proper_prefix hlast hcut hproper
  have hdecode := decode_of_proper_prefix hlast hcut hproper
  refine ⟨(lists.map Entries.encode).map (framedBytes compress level),
    (lists.map Entries.encode).map (framed compress level), mapM_frameBy hlists,
    readAll_framedBytes_append hlossless hraws hread, ?_, ?_, ?_,
    decode_framedBytes_drop hlossless hraws hdecode, hdecode, hread⟩
  · rw [List.map_map, List.map_map]
    exact List.map_congr_left fun entries hmem => entries_framed (hlists entries hmem)
  · rw [List.map_map, List.map_map]
    rfl
  · simp only [List.map_map]
    exact List.map_congr_left fun entries _ =>
      (length_framedBytes compress level (Entries.encode entries)).symm

/-- A block of an empty entry and a byte, a block without entries, and a header that is cut short. -/
theorem readAll_frames_cut_in_header :
    ∃ frames blocks,
      [[[], [0x61]], []].mapM (fun entries => frameBy Zstd.storing (Entries.encode entries) 3) =
        .ok frames ∧
      readAll (frames.flatten ++ [0x00, 0x01]) = (blocks, none, []) ∧
      blocks.map entries = [([[], [0x61]], none), ([], none)] := by
  have hfits : ∀ entries ∈ [[[]], [[], [0x61]], []],
      (framed Zstd.storing 3 (Entries.encode entries)).header.Fits := by
    intro entries hmem
    simp only [List.mem_cons, List.not_mem_nil, or_false] at hmem
    rcases hmem with rfl | rfl | rfl <;> exact ⟨by decide +kernel, by decide +kernel⟩
  have hwhole := frameBy_eq (hfits [[]] List.mem_cons_self)
  have hcut : [0x00, 0x01] <+: framedBytes Zstd.storing 3 (Entries.encode [[]]) := by decide +kernel
  have hproper : [0x00, 0x01] ≠ framedBytes Zstd.storing 3 (Entries.encode [[]]) := by decide +kernel
  obtain ⟨frames, blocks, hframes, hread, hentries, _⟩ :=
    readAll_frames Zstd.lossless_storing 3 [[[], [0x61]], []] [[]] hfits hwhole hcut hproper
  exact ⟨frames, blocks, hframes, hread, hentries⟩

end Lists

end Block

end ReplicatedLog
