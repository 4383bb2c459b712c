import ReplicatedLog.Bytes

namespace ReplicatedLog.Utf8

/-- The UTF-8 form of a text. -/
def encode (text : String) : Bytes :=
  text.toUTF8.data.toList

/-- The text whose UTF-8 form is `bytes`, if there is one. -/
def decode? (bytes : Bytes) : Option String :=
  String.fromUTF8? ⟨bytes.toArray⟩

/-- What the first byte of a character announces: how many bytes follow, between which bounds the
    first of them lies, and the leading bits of the code point. -/
structure Lead where
  tails : Nat
  low : Nat
  high : Nat
  bits : Nat

/-- The announcement of a first byte; none where no character starts with it. -/
def lead? (byte : Nat) : Option Lead :=
  if byte < 0x80 then some ⟨0, 0x80, 0xbf, byte⟩
  else if 0xc2 ≤ byte ∧ byte ≤ 0xdf then some ⟨1, 0x80, 0xbf, byte % 32⟩
  else if byte = 0xe0 then some ⟨2, 0xa0, 0xbf, byte % 16⟩
  else if byte = 0xed then some ⟨2, 0x80, 0x9f, byte % 16⟩
  else if 0xe1 ≤ byte ∧ byte ≤ 0xef then some ⟨2, 0x80, 0xbf, byte % 16⟩
  else if byte = 0xf0 then some ⟨3, 0x90, 0xbf, byte % 8⟩
  else if 0xf1 ≤ byte ∧ byte ≤ 0xf3 then some ⟨3, 0x80, 0xbf, byte % 8⟩
  else if byte = 0xf4 then some ⟨3, 0x80, 0x8f, byte % 8⟩
  else none

/-- Takes `tails` bytes between the bounds and adds their bits to `code`. Stops before the first
    byte that does not fit. -/
def takeTails : (tails low high code : Nat) → Bytes → Option Nat × Bytes
  | 0, _, _, code, rest => (some code, rest)
  | _ + 1, _, _, _, [] => (none, [])
  | tails + 1, low, high, code, byte :: rest =>
    if low ≤ byte.toNat ∧ byte.toNat ≤ high then
      takeTails tails 0x80 0xbf (code * 64 + byte.toNat % 64) rest
    else (none, byte :: rest)

theorem length_takeTails_le (tails low high code : Nat) (bytes : Bytes) :
    (takeTails tails low high code bytes).2.length ≤ bytes.length := by
  fun_induction takeTails tails low high code bytes with
  | case1 => simp
  | case2 => simp
  | case3 _ _ _ _ _ _ _ ih => simp only [List.length_cons]; omega
  | case4 => simp

/-- The next character, or the replacement character for a longest run of bytes that starts one
    without completing it. -/
def nextLossy (byte : UInt8) (rest : Bytes) : Char × Bytes :=
  match lead? byte.toNat with
  | none => ('\ufffd', rest)
  | some lead =>
    let (code, rest) := takeTails lead.tails lead.low lead.high lead.bits rest
    (code.elim '\ufffd' Char.ofNat, rest)

theorem length_nextLossy_le (byte : UInt8) (rest : Bytes) :
    (nextLossy byte rest).2.length ≤ rest.length := by
  unfold nextLossy
  split
  · simp
  · exact length_takeTails_le ..

/-- The characters of `bytes`, with `read` in front in reverse order. -/
def decodeLossyFrom (read : List Char) : Bytes → List Char
  | [] => read.reverse
  | byte :: rest =>
    have := length_nextLossy_le byte rest
    decodeLossyFrom ((nextLossy byte rest).1 :: read) (nextLossy byte rest).2
termination_by bytes => bytes.length
decreasing_by simp only [List.length_cons]; omega

/-- The text of `bytes`, with a replacement character where they are not UTF-8. -/
def decodeLossy (bytes : Bytes) : String :=
  String.ofList (decodeLossyFrom [] bytes)

end ReplicatedLog.Utf8
