import ReplicatedLog.Block.Entries
import ReplicatedLog.Proofs.Wire.Packet

namespace ReplicatedLog

namespace Entries

variable {entry groups : Bytes} {list : List Bytes}

theorem encode_append (first second : List Bytes) :
    encode (first ++ second) = encode first ++ encode second :=
  List.flatMap_append

theorem encode_singleton (entry : Bytes) : encode [entry] = encodeOne entry :=
  List.flatMap_singleton encodeOne entry

theorem encodeOne_ne_nil (entry : Bytes) : encodeOne entry ≠ [] := by
  intro hnil
  have hlength := (List.append_eq_nil_iff.mp hnil).1
  rw [Varint.encode] at hlength
  split at hlength <;> contradiction

theorem encode_ne_nil (hsome : list ≠ []) : encode list ≠ [] := by
  obtain ⟨first, rest, rfl⟩ := List.exists_cons_of_ne_nil hsome
  exact List.append_ne_nil_of_left_ne_nil (encodeOne_ne_nil first) _

/-- The bytes of an entry are among those of the row. -/
theorem length_le_of_mem (hmem : entry ∈ list) : entry.length ≤ (encode list).length := by
  induction list with
  | nil => contradiction
  | cons first rest ih =>
    rw [encode, List.flatMap_cons, List.length_append, ← encode]
    rcases List.mem_cons.mp hmem with rfl | hrest
    · rw [encodeOne, List.length_append]
      omega
    · have hle := ih hrest
      omega

theorem decode_nil : decode [] = ([], none) := by
  rw [decode]
  rfl

/-- The first entry is what is behind a form of its length. -/
theorem next_form_append (hlength : Varint.Form groups entry.length) (rest : Bytes) :
    next (groups ++ (entry ++ rest)) = (some (.ok entry), rest) := by
  have hsome : ¬ (groups ++ (entry ++ rest)).isEmpty := by
    rw [List.isEmpty_iff, List.append_eq_nil_iff]
    rintro ⟨rfl, -⟩
    exact absurd hlength.made.length_pos (by decide)
  have henough : ¬ (entry ++ rest).length < entry.length := by
    rw [List.length_append]
    omega
  rw [next, if_neg hsome, hlength.decode_append]
  dsimp only
  rw [if_neg henough, List.take_left, List.drop_left]

theorem decode_form_append (hlength : Varint.Form groups entry.length) (rest : Bytes) :
    decode (groups ++ (entry ++ rest)) = (entry :: (decode rest).1, (decode rest).2) := by
  rw [decode_eq_next, next_form_append hlength]

/-- The first entry is cut off behind its length. -/
theorem decode_encodeOne_append (hfits : entry.length ≤ Decimal.maxValue) (rest : Bytes) :
    decode (encodeOne entry ++ rest) = (entry :: (decode rest).1, (decode rest).2) := by
  rw [encodeOne, List.append_assoc]
  exact decode_form_append (Varint.form_encode hfits) rest

theorem decode_encode_append (hfits : ∀ entry ∈ list, entry.length ≤ Decimal.maxValue)
    (rest : Bytes) : decode (encode list ++ rest) = (list ++ (decode rest).1, (decode rest).2) := by
  induction list with
  | nil => rfl
  | cons first others ih =>
    have hothers := ih fun entry hmem => hfits entry (List.mem_cons_of_mem _ hmem)
    rw [encode, List.flatMap_cons, List.append_assoc, ← encode,
      decode_encodeOne_append (hfits first List.mem_cons_self), hothers]
    rfl

theorem decode_encode_of_short (hshort : ∀ entry ∈ list, entry.length ≤ Decimal.maxValue) :
    decode (encode list) = (list, none) := by
  have hrow := decode_encode_append hshort []
  rwa [List.append_nil, decode_nil, List.append_nil] at hrow

/-- Entries are decoded from what they are encoded to. -/
theorem decode_encode (hfits : (encode list).length ≤ Decimal.maxValue) :
    decode (encode list) = (list, none) :=
  decode_encode_of_short fun _ hmem => (length_le_of_mem hmem).trans hfits

end Entries

end ReplicatedLog
