import ReplicatedLog.Zstd.Frame

namespace ReplicatedLog.Zstd

/-- A header without content length or checksum, and with a window of one largest block. -/
def writtenHeader : Bytes := [0x00, 0x38]

/-- One block of at most the largest length: a repeated byte is stored once, all else as it is. -/
def writeBlock (isLast : Bool) (data : Bytes) : Bytes :=
  match data with
  | byte :: _ :: _ =>
    if data.all (· == byte) then BlockHead.toBytes ⟨isLast, 1, data.length⟩ ++ [byte]
    else BlockHead.toBytes ⟨isLast, 0, data.length⟩ ++ data
  | _ => BlockHead.toBytes ⟨isLast, 0, data.length⟩ ++ data

/-- The blocks of `data`, each as large as it may be. -/
def writeBlocks (data : Bytes) : Bytes :=
  if data.length ≤ maxBlockLength then writeBlock true data
  else writeBlock false (data.take maxBlockLength) ++ writeBlocks (data.drop maxBlockLength)
termination_by data.length
decreasing_by
  have : 0 < maxBlockLength := by decide
  simp only [List.length_drop]
  omega

/-- A frame that holds `data`. -/
def compress (data : Bytes) : Bytes :=
  magic ++ writtenHeader ++ writeBlocks data

/-- A way to put data into frames, at each level of compression. -/
abbrev Compressor := (level : Int) → (data : Bytes) → Bytes

/-- The compressor that stores data in the same way at every level. -/
def storing : Compressor := fun _ data => compress data

end ReplicatedLog.Zstd
