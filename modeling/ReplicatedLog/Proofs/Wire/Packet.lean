import Mathlib.Data.List.Basic
import Mathlib.Data.List.Induction
import ReplicatedLog.Proofs.Text.Utf8
import ReplicatedLog.Proofs.Wire.Varint
import ReplicatedLog.Wire.Packet

namespace ReplicatedLog

theorem Bytes.foldl_ofNatBE (width value start : Nat) :
    (Bytes.ofNatBE width value).foldl (fun value byte => value * 256 + byte.toNat) start =
      start * 256 ^ width + value % 256 ^ width := by
  induction width generalizing start with
  | zero => simp [Bytes.ofNatBE, Nat.mod_one]
  | succ width ih =>
    have hpow : Nat.pow 256 width = 256 ^ width := rfl
    rw [Bytes.ofNatBE, List.foldl_cons, ih, UInt8.toNat_ofNat', hpow]
    have hsplit : value % 256 ^ (width + 1) =
        value / 256 ^ width % 256 * 256 ^ width + value % 256 ^ width := by
      rw [Nat.pow_succ, Nat.mod_mul, Nat.mul_comm (256 ^ width), Nat.add_comm]
    rw [hsplit, Nat.pow_succ]
    ring

theorem Bytes.toNatBE_ofNatBE {width value : Nat} (hfits : value < 256 ^ width) :
    Bytes.toNatBE (Bytes.ofNatBE width value) = value := by
  rw [Bytes.toNatBE, Bytes.foldl_ofNatBE, Nat.zero_mul, Nat.zero_add, Nat.mod_eq_of_lt hfits]

theorem Bytes.toNatBE_append_singleton (bytes : Bytes) (byte : UInt8) :
    Bytes.toNatBE (bytes ++ [byte]) = Bytes.toNatBE bytes * 256 + byte.toNat :=
  List.foldl_append

theorem Bytes.toNatBE_lt (bytes : Bytes) : Bytes.toNatBE bytes < 256 ^ bytes.length := by
  induction bytes using List.reverseRecOn with
  | nil => decide
  | append_singleton bytes byte ih =>
    have hbyte := byte.toNat_lt
    rw [toNatBE_append_singleton, List.length_append, List.length_singleton, Nat.pow_succ]
    omega

namespace FixedWidth

theorem width_pos (value : Nat) : 1 ≤ width value := by
  unfold width
  split <;> omega

theorem lt_pow_width (value : Nat) : value < 256 ^ width value := by
  unfold width
  by_cases hzero : value = 0
  · simp [hzero]
  · rw [if_neg hzero, show 256 = 2 ^ 8 from rfl, ← Nat.pow_mul]
    refine Nat.lt_log2_self.trans_le (Nat.pow_le_pow_right (by decide) ?_)
    omega

theorem width_le {value count : Nat} (hvalue : value < 256 ^ count) (hcount : 1 ≤ count) :
    width value ≤ count := by
  unfold width
  by_cases hzero : value = 0
  · rwa [if_pos hzero]
  · rw [if_neg hzero]
    rw [show 256 = 2 ^ 8 from rfl, ← Nat.pow_mul] at hvalue
    have hlog := (Nat.log2_lt hzero).mpr hvalue
    omega

/-- A field is read in front of any bytes, also where its number needs fewer of them. -/
theorem decode_append {field : Bytes} (name : String) (hpos : 1 ≤ field.length)
    (hmax : field.length ≤ 8) (rest : Bytes) :
    decode name field.length (field ++ rest) = .ok (Bytes.toNatBE field, rest) := by
  have hwidth : ¬ (field.length < 1 ∨ 8 < field.length) := by omega
  have hlong : ¬ (field ++ rest).length < field.length := by
    rw [List.length_append]
    omega
  rw [decode, if_neg hwidth, if_neg hlong, List.take_left, List.drop_left]

/-- A number of fixed width is read back in front of any bytes. -/
theorem decode_ofNatBE {count value : Nat} (name : String) (hcount : 1 ≤ count) (hmax : count ≤ 8)
    (hfits : value < 256 ^ count) (rest : Bytes) :
    decode name count (Bytes.ofNatBE count value ++ rest) = .ok (value, rest) := by
  have hlength := Bytes.length_ofNatBE count value
  have hread := decode_append name (show 1 ≤ (Bytes.ofNatBE count value).length by omega)
    (by omega) rest
  rwa [hlength, Bytes.toNatBE_ofNatBE hfits] at hread

end FixedWidth

namespace Packet

/-- A packet whose topic and offset fit their fields. -/
def Encodable (packet : Packet) : Prop :=
  packet.topic.length ≤ maxTopicLength ∧
    match packet with
    | publish offset _ _ | reset _ offset => offset ≤ Decimal.maxValue
    | ack _ | failure _ => True

theorem width_topic_le {topic : Bytes} (htopic : topic.length ≤ maxTopicLength) :
    FixedWidth.width topic.length ≤ 4 :=
  FixedWidth.width_le (lt_of_le_of_lt htopic (by decide)) (by decide)

theorem width_offset_le {offset : Nat} (hoffset : offset ≤ Decimal.maxValue) :
    FixedWidth.width offset ≤ 8 :=
  FixedWidth.width_le (lt_of_le_of_lt hoffset (by decide)) (by decide)

/-- A topic is read from a length of the width that the head tells, and as many bytes. -/
theorem decodeTopic_append {head : Nat} {lengthField topic : Bytes}
    (hhead : head % 4 + 1 = lengthField.length) (htells : Bytes.toNatBE lengthField = topic.length)
    (rest : Bytes) :
    decodeTopic head (lengthField ++ (topic ++ rest)) = .ok (topic, rest) := by
  have hread := FixedWidth.decode_append "topic-len" (show 1 ≤ lengthField.length by omega)
    (by omega) (topic ++ rest)
  have hlong : ¬ (topic ++ rest).length < topic.length := by
    rw [List.length_append]
    omega
  rw [decodeTopic, hhead, hread]
  simp only [bind, Except.bind, htells, if_neg hlong, List.take_left, List.drop_left]

theorem decodeTopic_topicField {head : Nat} {topic : Bytes}
    (hhead : head % 4 + 1 = FixedWidth.width topic.length) (rest : Bytes) :
    decodeTopic head (topicField topic ++ rest) = .ok (topic, rest) := by
  rw [topicField, List.append_assoc]
  exact decodeTopic_append (by rw [hhead, Bytes.length_ofNatBE])
    (Bytes.toNatBE_ofNatBE (FixedWidth.lt_pow_width topic.length)) rest

theorem toNat_publishHead {offset : Nat} {topic : Bytes} (hoffset : offset ≤ Decimal.maxValue)
    (htopic : topic.length ≤ maxTopicLength) :
    (publishHead offset topic).toNat =
      (FixedWidth.width offset - 1) * 4 + (FixedWidth.width topic.length - 1) := by
  have hwidth := width_topic_le htopic
  have hwidthOffset := width_offset_le hoffset
  rw [publishHead, UInt8.toNat_ofNat']
  exact Nat.mod_eq_of_lt (by omega)

theorem toNat_replyHead {subtype : Nat} {topic : Bytes} (hsubtype : subtype ≤ 2)
    (htopic : topic.length ≤ maxTopicLength) :
    (replyHead subtype topic).toNat =
      32 + subtype * 8 + (FixedWidth.width topic.length - 1) := by
  have hwidth := width_topic_le htopic
  rw [replyHead, UInt8.toNat_ofNat']
  exact Nat.mod_eq_of_lt (by omega)

theorem publishHead_spec {offset : Nat} {topic : Bytes} (hoffset : offset ≤ Decimal.maxValue)
    (htopic : topic.length ≤ maxTopicLength) :
    (publishHead offset topic).toNat / 32 = 0 ∧
      (publishHead offset topic).toNat / 4 % 8 + 1 = FixedWidth.width offset ∧
      (publishHead offset topic).toNat % 4 + 1 = FixedWidth.width topic.length := by
  have hwidth := width_topic_le htopic
  have hwidthPos := FixedWidth.width_pos topic.length
  have hoffsetPos := FixedWidth.width_pos offset
  have hwidthOffset := width_offset_le hoffset
  have hhead := toNat_publishHead hoffset htopic
  omega

theorem decode_publish {offset : Nat} {topic : Bytes} (hoffset : offset ≤ Decimal.maxValue)
    (htopic : topic.length ≤ maxTopicLength) (data : Bytes) :
    decode (layout (publish offset topic data)) = .ok (publish offset topic data) := by
  obtain ⟨hkind, hcount, hlength⟩ := publishHead_spec hoffset htopic
  have hread := FixedWidth.decode_ofNatBE "offset" (FixedWidth.width_pos offset)
    (width_offset_le hoffset) (FixedWidth.lt_pow_width offset) (topicField topic ++ data)
  have hrest := decodeTopic_topicField hlength data
  simp only [layout, List.cons_append, List.append_assoc, decode, hkind, decodePublish, hcount,
    hread, hrest, bind, Except.bind]

theorem replyHead_spec (subtype : Nat) {topic : Bytes} (hsubtype : subtype ≤ 2)
    (htopic : topic.length ≤ maxTopicLength) :
    (replyHead subtype topic).toNat / 32 = 1 ∧
      (replyHead subtype topic).toNat / 8 % 4 = subtype ∧
      (replyHead subtype topic).toNat % 4 + 1 = FixedWidth.width topic.length := by
  have hwidth := width_topic_le htopic
  have hpos := FixedWidth.width_pos topic.length
  have hhead := toNat_replyHead hsubtype htopic
  omega

/-- The bytes of a packet tell the packet. -/
theorem decode_layout {packet : Packet} (hfits : packet.Encodable) :
    decode packet.layout = .ok packet := by
  obtain ⟨htopic, hoffset⟩ := hfits
  cases packet with
  | publish offset topic data => exact decode_publish hoffset htopic data
  | ack topic =>
    change topic.length ≤ maxTopicLength at htopic
    obtain ⟨hkind, hsub, hlength⟩ := replyHead_spec 0 (by decide) htopic
    have hrest := decodeTopic_topicField hlength []
    rw [List.append_nil] at hrest
    simp only [layout, decode, hkind, decodeReply, hrest, hsub, bind, Except.bind]
  | reset topic offset =>
    change topic.length ≤ maxTopicLength at htopic
    obtain ⟨hkind, hsub, hlength⟩ := replyHead_spec 1 (by decide) htopic
    have hrest := decodeTopic_topicField hlength (Varint.encode offset)
    have hnumber := Varint.decode_encode hoffset []
    rw [List.append_nil] at hnumber
    simp only [layout, List.cons_append, decode, hkind, decodeReply, hrest, hsub, hnumber, bind,
      Except.bind]
  | failure topic =>
    change topic.length ≤ maxTopicLength at htopic
    obtain ⟨hkind, hsub, hlength⟩ := replyHead_spec 2 (by decide) htopic
    have hrest := decodeTopic_topicField hlength []
    rw [List.append_nil] at hrest
    simp only [layout, decode, hkind, decodeReply, hrest, hsub, bind, Except.bind]

theorem length_topicField (topic : Bytes) :
    (topicField topic).length = FixedWidth.width topic.length + topic.length := by
  rw [topicField, List.length_append, Bytes.length_ofNatBE]

theorem topic_length_le (packet : Packet) : packet.topic.length ≤ packet.encodedLength := by
  cases packet <;> simp only [encodedLength, Packet.topic] <;> omega

/-- The length of a packet is known before it is encoded. -/
theorem length_layout (packet : Packet) : packet.layout.length = packet.encodedLength := by
  cases packet with
  | publish offset topic data =>
    simp only [layout, encodedLength, Packet.topic, List.length_append, List.length_cons,
      Bytes.length_ofNatBE, length_topicField]
    omega
  | ack topic =>
    simp only [layout, encodedLength, Packet.topic, List.length_cons, length_topicField]
    omega
  | reset topic offset =>
    simp only [layout, encodedLength, Packet.topic, List.length_append, List.length_cons,
      length_topicField, Varint.length_encode]
    omega
  | failure topic =>
    simp only [layout, encodedLength, Packet.topic, List.length_cons, length_topicField]
    omega

end Packet

end ReplicatedLog
