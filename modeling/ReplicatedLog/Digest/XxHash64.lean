import ReplicatedLog.Bytes

namespace ReplicatedLog.XxHash64

def prime1 : UInt64 := 0x9e3779b185ebca87
def prime2 : UInt64 := 0xc2b2ae3d27d4eb4f
def prime3 : UInt64 := 0x165667b19e3779f9
def prime4 : UInt64 := 0x85ebca77c2b2ae63
def prime5 : UInt64 := 0x27d4eb2f165667c5

def rotateLeft (word count : UInt64) : UInt64 :=
  (word <<< count) ||| (word >>> (64 - count))

/-- Mixes one lane of eight bytes into an accumulator. -/
def round (acc lane : UInt64) : UInt64 :=
  rotateLeft (acc + lane * prime2) 31 * prime1

/-- Mixes a finished accumulator into the hash. -/
def merge (hash acc : UInt64) : UInt64 :=
  (hash ^^^ round 0 acc) * prime1 + prime4

/-- A number of up to eight bytes, least significant first. -/
def lane (bytes : Bytes) : UInt64 :=
  UInt64.ofNat (Bytes.toNatLE bytes)

/-- The four accumulators, one for each eight bytes of a stripe. -/
structure Accumulators where
  a : UInt64
  b : UInt64
  c : UInt64
  d : UInt64

/-- Consumes as many stripes of 32 bytes as `count` says and gives what is left. -/
def stripes : (count : Nat) → Accumulators → Bytes → Accumulators × Bytes
  | 0, acc, bytes => (acc, bytes)
  | count + 1, acc, bytes =>
    stripes count ⟨round acc.a (lane (bytes.take 8)), round acc.b (lane ((bytes.drop 8).take 8)),
      round acc.c (lane ((bytes.drop 16).take 8)), round acc.d (lane ((bytes.drop 24).take 8))⟩
      (bytes.drop 32)

/-- Mixes in single bytes. -/
def tail1 (hash : UInt64) (bytes : Bytes) : UInt64 :=
  bytes.foldl (fun hash byte => rotateLeft (hash ^^^ (byte.toUInt64 * prime5)) 11 * prime1) hash

/-- Mixes in four bytes, if there are so many, and then the rest. -/
def tail4 (hash : UInt64) (bytes : Bytes) : UInt64 :=
  if bytes.length < 4 then tail1 hash bytes
  else tail1 (rotateLeft (hash ^^^ (lane (bytes.take 4) * prime1)) 23 * prime2 + prime3)
    (bytes.drop 4)

/-- Mixes in eight bytes at a time, and then the rest. -/
def tail8 (hash : UInt64) (bytes : Bytes) : UInt64 :=
  if bytes.length < 8 then tail4 hash bytes
  else tail8 (rotateLeft (hash ^^^ round 0 (lane (bytes.take 8))) 27 * prime1 + prime4)
    (bytes.drop 8)
termination_by bytes.length
decreasing_by simp only [List.length_drop]; omega

/-- Spreads every bit over the whole hash. -/
def avalanche (hash : UInt64) : UInt64 :=
  let hash := (hash ^^^ (hash >>> 33)) * prime2
  let hash := (hash ^^^ (hash >>> 29)) * prime3
  hash ^^^ (hash >>> 32)

/-- The hash of `bytes` with seed zero. -/
def hash (bytes : Bytes) : UInt64 :=
  let length := UInt64.ofNat bytes.length
  if bytes.length < 32 then avalanche (tail8 (prime5 + length) bytes)
  else
    let (acc, rest) := stripes (bytes.length / 32) ⟨prime1 + prime2, prime2, 0, 0 - prime1⟩ bytes
    let mixed := rotateLeft acc.a 1 + rotateLeft acc.b 7 + rotateLeft acc.c 12 + rotateLeft acc.d 18
    let merged := merge (merge (merge (merge mixed acc.a) acc.b) acc.c) acc.d
    avalanche (tail8 (merged + length) rest)

end ReplicatedLog.XxHash64
