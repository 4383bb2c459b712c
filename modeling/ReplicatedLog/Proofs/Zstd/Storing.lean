import Mathlib.Algebra.Order.Ring.Nat
import ReplicatedLog.Zstd.Writer

namespace ReplicatedLog

/-- Digits in a row give the number back, least significant first. -/
theorem Bytes.toNatLE_ofNatLE {width value : Nat} (hfits : value < 256 ^ width) :
    Bytes.toNatLE (Bytes.ofNatLE width value) = value := by
  induction width generalizing value with
  | zero =>
    rw [Nat.pow_zero] at hfits
    rw [Nat.lt_one_iff.mp hfits]
    rfl
  | succ width ih =>
    have hrest : value / 256 < 256 ^ width := by
      apply Nat.div_lt_of_lt_mul
      rwa [Nat.mul_comm, ← Nat.pow_succ]
    have htail := ih hrest
    rw [Bytes.toNatLE] at htail
    rw [Bytes.ofNatLE, Bytes.toNatLE, List.foldr_cons, htail, UInt8.toNat_ofNat']
    omega

namespace Zstd

/-- What a compressor makes of data decompresses to the data. -/
def Lossless (compress : Compressor) : Prop :=
  ∀ level data, decompress (compress level data) = some data

namespace BlockHead

variable {head : BlockHead}

theorem length_toBytes (head : BlockHead) : head.toBytes.length = 3 :=
  Bytes.length_ofNatLE 3 _

/-- A head is read back from its bytes. -/
theorem ofBytes_toBytes (hkind : head.kind < 4) (hsize : head.size ≤ maxBlockLength) :
    ofBytes head.toBytes = head := by
  obtain ⟨isLast, kind, size⟩ := head
  simp only [maxBlockLength] at hkind hsize
  have hlast := Bool.toNat_lt isLast
  have hfits : isLast.toNat + kind * 2 + size * 8 < 256 ^ 3 := by omega
  rw [toBytes, ofBytes, Bytes.toNatLE_ofNatLE hfits]
  have hfirst : (isLast.toNat + kind * 2 + size * 8) % 2 = isLast.toNat := by omega
  have hsecond : (isLast.toNat + kind * 2 + size * 8) / 2 % 4 = kind := by omega
  have hthird : (isLast.toNat + kind * 2 + size * 8) / 8 = size := by omega
  rw [hfirst, hsecond, hthird]
  cases isLast <;> rfl

end BlockHead

/-- The header of a stored frame allows for the largest blocks. -/
def storedHeader : FrameHeader :=
  ⟨maxBlockLength, none, false⟩

theorem FrameHeader.field?_append (front rest : Bytes) :
    field? front.length (front ++ rest) = some (Bytes.toNatLE front, rest) := by
  have henough : ¬ (front ++ rest).length < front.length := by
    rw [List.length_append]
    omega
  rw [field?, if_neg henough, List.take_left, List.drop_left]

theorem read?_writtenHeader (rest : Bytes) :
    FrameHeader.read? (writtenHeader ++ rest) = some (storedHeader, rest) := by
  have hdescriptor : FrameHeader.field? 1 (writtenHeader ++ rest) = some (0, 0x38 :: rest) :=
    FrameHeader.field?_append [0x00] (0x38 :: rest)
  have hwindow : FrameHeader.field? 1 (0x38 :: rest) = some (0x38, rest) :=
    FrameHeader.field?_append [0x38] rest
  have hnone : FrameHeader.field? 0 rest = some (0, rest) := FrameHeader.field?_append [] rest
  have hblock : FrameHeader.windowOf 0x38 = maxBlockLength := by decide
  have hsmall : ¬ maxWindow < maxBlockLength := by decide
  simp [FrameHeader.read?, hdescriptor, hwindow, hnone, FrameHeader.contentWidth, hblock, hsmall,
    storedHeader, maxWindowLog]

/-- A block of some data behind its head. -/
theorem decodeBlocks_append (head : BlockHead) (hkind : head.kind < 4)
    (hsize : head.size ≤ maxBlockLength) {block : Bytes} (hblock : block.length = head.stored)
    {context after : Context} {out decoded : Array UInt8}
    (hdecode : head.decode storedHeader context block out = some (after, decoded)) (rest : Bytes) :
    decodeBlocks storedHeader context out (head.toBytes ++ (block ++ rest)) =
      if head.isLast then some (decoded, rest) else decodeBlocks storedHeader after decoded rest := by
  have hhead : BlockHead.ofBytes ((head.toBytes ++ (block ++ rest)).take 3) = head := by
    rw [List.take_left' head.length_toBytes, BlockHead.ofBytes_toBytes hkind hsize]
  have hrest : (head.toBytes ++ (block ++ rest)).drop 3 = block ++ rest :=
    List.drop_left' head.length_toBytes
  have hexceeds : head.exceeds storedHeader = false := by
    have hlimit : ¬ storedHeader.blockLimit < head.size := Nat.not_lt.mpr hsize
    simp [BlockHead.exceeds, hlimit]
  have henough : ¬ ((head.toBytes ++ (block ++ rest)).length < 3 ∨
      (block ++ rest).length < head.stored ∨ head.exceeds storedHeader = true) := by
    have hlength := head.length_toBytes
    simp only [List.length_append, hexceeds]
    simp
    omega
  rw [decodeBlocks]
  simp only [hhead, hrest, if_neg henough, List.take_left' hblock, List.drop_left' hblock, hdecode]

/-- Data that fits into one block is stored in it. -/
theorem decodeBlocks_writeBlock (isLast : Bool) {data : Bytes}
    (hdata : data.length ≤ maxBlockLength) (context : Context) (out : Array UInt8) (rest : Bytes) :
    decodeBlocks storedHeader context out (writeBlock isLast data ++ rest) =
      if isLast then some (out ++ data, rest)
      else decodeBlocks storedHeader context (out ++ data) rest := by
  have hraw : decodeBlocks storedHeader context out
      (BlockHead.toBytes ⟨isLast, 0, data.length⟩ ++ data ++ rest) =
        if isLast then some (out ++ data, rest)
        else decodeBlocks storedHeader context (out ++ data) rest := by
    rw [List.append_assoc]
    exact decodeBlocks_append ⟨isLast, 0, data.length⟩ (show 0 < 4 by decide) hdata rfl rfl rest
  unfold writeBlock
  split
  next byte other others =>
    by_cases hall : (byte :: other :: others).all (· == byte)
    · rw [if_pos hall, List.append_assoc]
      have hsame : List.replicate (byte :: other :: others).length byte = byte :: other :: others := by
        refine (List.eq_replicate_of_mem fun found hmem => ?_).symm
        exact eq_of_beq (List.all_eq_true.mp hall found hmem)
      let head : BlockHead := ⟨isLast, 1, (byte :: other :: others).length⟩
      have hdecode : head.decode storedHeader context [byte] out =
          some (context, out ++ List.replicate head.size byte) := rfl
      have hstored : [byte].length = head.stored := rfl
      rw [decodeBlocks_append head (show 1 < 4 by decide) hdata hstored hdecode]
      have hwhole : List.replicate head.size byte = byte :: other :: others := hsame
      rw [hwhole]
    · rw [if_neg hall]
      exact hraw
  next => exact hraw

theorem decodeBlocks_writeBlocks (data : Bytes) (context : Context) (out : Array UInt8) :
    decodeBlocks storedHeader context out (writeBlocks data) = some (out ++ data, []) := by
  fun_induction writeBlocks data generalizing out with
  | case1 data hshort =>
    have hblock := decodeBlocks_writeBlock true hshort context out []
    rw [List.append_nil] at hblock
    exact hblock
  | case2 data hlong ih =>
    have htake : (data.take maxBlockLength).length ≤ maxBlockLength := List.length_take_le _ _
    have hblock := decodeBlocks_writeBlock false htake context out
      (writeBlocks (data.drop maxBlockLength))
    rw [hblock, if_neg Bool.false_ne_true, ih]
    have hjoin : out ++ data.take maxBlockLength ++ data.drop maxBlockLength = out ++ data := by
      apply Array.ext'
      simp only [Array.toList_appendList, List.append_assoc, List.take_append_drop]
    rw [hjoin]

/-- A stored frame gives its data back. -/
theorem decompress_compress (data : Bytes) : decompress (compress data) = some data := by
  have hframe : decodeFrame (writtenHeader ++ writeBlocks data) = some (data, []) := by
    simp only [decodeFrame, read?_writtenHeader, bind, Option.bind,
      decodeBlocks_writeBlocks data {} #[]]
    simp [storedHeader]
  have htake : (magic ++ (writtenHeader ++ writeBlocks data)).take 4 = magic := List.take_left' rfl
  have hdrop : (magic ++ (writtenHeader ++ writeBlocks data)).drop 4 =
      writtenHeader ++ writeBlocks data := List.drop_left' rfl
  rw [compress, List.append_assoc, decompress]
  obtain ⟨count, hcount⟩ : ∃ count,
      (magic ++ (writtenHeader ++ writeBlocks data)).length = count + 1 := ⟨_, rfl⟩
  rw [hcount, decodeFrames, htake, if_pos rfl, hdrop, hframe]
  rfl

theorem lossless_storing : Lossless storing :=
  fun _ data => decompress_compress data

end Zstd

end ReplicatedLog
