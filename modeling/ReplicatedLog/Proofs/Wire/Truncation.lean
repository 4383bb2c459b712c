import ReplicatedLog.Proofs.Wire.Packet

namespace ReplicatedLog

/-- Bytes from the front of a field and what follows it miss some of the field or hold all of it. -/
theorem Bytes.prefix_append_cases {part field rest : Bytes} (hcut : part <+: field ++ rest) :
    (part <+: field ∧ part.length < field.length) ∨
      ∃ more, part = field ++ more ∧ more <+: rest := by
  obtain hshort | hwhole := Nat.lt_or_ge part.length field.length
  · left
    exact ⟨List.prefix_of_prefix_length_le hcut (List.prefix_append field rest) hshort.le, hshort⟩
  · right
    obtain ⟨more, rfl⟩ :=
      List.prefix_of_prefix_length_le (List.prefix_append field rest) hcut hwhole
    exact ⟨more, rfl, (List.prefix_append_right_inj field).mp hcut⟩

theorem FixedWidth.decode_of_lt {count : Nat} {bytes : Bytes} (name : String) (hcount : 1 ≤ count)
    (hmax : count ≤ 8) (hshort : bytes.length < count) :
    decode name count bytes = .error (.truncated (.field name count bytes.length)) := by
  have hwidth : ¬ (count < 1 ∨ 8 < count) := by omega
  rw [decode, if_neg hwidth, if_pos hshort]

namespace Varint

/-- A number that lacks its last groups is noticed at the end, as all groups before ask for more. -/
theorem decodeFrom_of_cut {number left shift : Nat} {part : Bytes} (start : Nat)
    (hcut : part <+: encode number) (hshort : part.length < (encode number).length)
    (hfits : number < 2 ^ (64 - shift)) (hleft : shift + 7 * left = 70) (hshift : shift ≤ 63) :
    decodeFrom left shift start part = (.error (.truncated .varint), []) := by
  induction number using encode.induct generalizing left shift start part with
  | case1 number hsmall =>
    obtain ⟨count, rfl⟩ : ∃ count, left = count + 1 := ⟨left - 1, by omega⟩
    rw [encode, if_pos hsmall, List.length_singleton, Nat.lt_one_iff, List.length_eq_zero_iff] at hshort
    rw [hshort, decodeFrom]
  | case2 number hlarge ih =>
    obtain ⟨count, rfl⟩ : ∃ count, left = count + 1 := ⟨left - 1, by omega⟩
    rw [encode, if_neg hlarge] at hcut hshort
    obtain rfl | ⟨groups, rfl, hgroups⟩ := List.prefix_cons_iff.mp hcut
    · rw [decodeFrom]
    · have hbyte : (UInt8.ofNat (number % 128 + 128)).toNat = number % 128 + 128 := by
        rw [UInt8.toNat_ofNat']
        exact Nat.mod_eq_of_lt (by omega)
      have hmore : shift ≠ 63 := by
        rintro rfl
        norm_num at hfits
        omega
      have hrest : number / 128 < 2 ^ (64 - (shift + 7)) := by
        have hpow : 64 - shift = 64 - (shift + 7) + 7 := by omega
        rw [hpow, Nat.pow_add, Nat.mul_comm] at hfits
        exact Nat.div_lt_of_lt_mul hfits
      rw [List.length_cons, List.length_cons, Nat.add_lt_add_iff_right] at hshort
      rw [decodeFrom, hbyte, if_neg (fun hlast => hmore hlast.1), if_neg (by omega)]
      exact ih _ hgroups hshort hrest (by omega) (by omega)

theorem decode_of_cut {number : Nat} {part : Bytes} (hcut : part <+: encode number)
    (hshort : part.length < (encode number).length) (hfits : number ≤ Decimal.maxValue) :
    decode part = (.error (.truncated .varint), []) := by
  have hlt : number < 2 ^ (64 - 0) := lt_of_le_of_lt hfits (by decide)
  exact decodeFrom_of_cut 0 hcut hshort hlt (by decide) (by decide)

end Varint

namespace Packet

variable {topic part : Bytes} {head offset : Nat} {packet : Packet}

/-- The data at the end of a packet. The bytes alone do not tell how much of it there is. -/
def dataLength : Packet → Nat
  | publish _ _ data => data.length
  | ack _ | reset _ _ | failure _ => 0

/-- Something was missing when these bytes were read. -/
def Truncated {α : Type} (outcome : Except WireFault α) : Prop :=
  ∃ cause, outcome = .error (.truncated cause)

theorem Truncated.bind {α β : Type} {outcome : Except WireFault α} (htruncated : Truncated outcome)
    (next : α → Except WireFault β) : Truncated (outcome >>= next) := by
  obtain ⟨cause, rfl⟩ := htruncated
  exact ⟨cause, rfl⟩

theorem decodeTopic_of_cut (hhead : head % 4 + 1 = FixedWidth.width topic.length)
    (hcut : part <+: topicField topic) (hshort : part.length < (topicField topic).length) :
    Truncated (decodeTopic head part) := by
  have hpos := FixedWidth.width_pos topic.length
  rw [length_topicField] at hshort
  obtain ⟨-, hmissing⟩ | ⟨more, rfl, -⟩ := Bytes.prefix_append_cases hcut
  · rw [Bytes.length_ofNatBE] at hmissing
    rw [decodeTopic, hhead, FixedWidth.decode_of_lt "topic-len" hpos (by omega) hmissing]
    exact ⟨_, rfl⟩
  · have hread := FixedWidth.decode_ofNatBE "topic-len" hpos (by omega)
      (FixedWidth.lt_pow_width topic.length) more
    have hmissing : more.length < topic.length := by
      rw [List.length_append, Bytes.length_ofNatBE] at hshort
      omega
    rw [decodeTopic, hhead, hread]
    exact ⟨.field "topic" topic.length more.length, if_pos hmissing⟩

theorem decodePublish_of_cut {data : Bytes}
    (hcount : head / 4 % 8 + 1 = FixedWidth.width offset)
    (hlength : head % 4 + 1 = FixedWidth.width topic.length)
    (hcut : part <+: Bytes.ofNatBE (FixedWidth.width offset) offset ++ (topicField topic ++ data))
    (hshort : part.length < FixedWidth.width offset + (topicField topic).length) :
    Truncated (decodePublish head part) := by
  have hpos := FixedWidth.width_pos offset
  obtain ⟨-, hmissing⟩ | ⟨more, rfl, hmore⟩ := Bytes.prefix_append_cases hcut
  · rw [Bytes.length_ofNatBE] at hmissing
    rw [decodePublish, hcount, FixedWidth.decode_of_lt "offset" hpos (by omega) hmissing]
    exact ⟨_, rfl⟩
  · have hread := FixedWidth.decode_ofNatBE "offset" hpos (by omega)
      (FixedWidth.lt_pow_width offset) more
    have hmissing : more.length < (topicField topic).length := by
      rw [List.length_append, Bytes.length_ofNatBE] at hshort
      omega
    have htopic := List.prefix_of_prefix_length_le hmore (List.prefix_append _ data) hmissing.le
    rw [decodePublish, hcount, hread]
    exact (decodeTopic_of_cut hlength htopic hmissing).bind _

/-- A reply is cut inside its topic, or inside the offset behind it. -/
theorem decodeReply_of_cut {tail : Bytes} (hlength : head % 4 + 1 = FixedWidth.width topic.length)
    (hcut : part <+: topicField topic ++ tail) (hshort : part.length < (topicField topic ++ tail).length)
    (htail : tail = [] ∨
      head / 8 % 4 = 1 ∧ ∃ offset, offset ≤ Decimal.maxValue ∧ tail = Varint.encode offset) :
    Truncated (decodeReply head part) := by
  obtain ⟨htopic, hmissing⟩ | ⟨more, rfl, hmore⟩ := Bytes.prefix_append_cases hcut
  · exact (decodeTopic_of_cut hlength htopic hmissing).bind _
  · rw [List.length_append, List.length_append, Nat.add_lt_add_iff_left] at hshort
    obtain rfl | ⟨hsubtype, offset, hoffset, rfl⟩ := htail
    · cases hshort
    · rw [decodeReply, decodeTopic_topicField hlength more]
      simp only [bind, Except.bind, hsubtype, Varint.decode_of_cut hmore hshort hoffset]
      exact ⟨_, rfl⟩

theorem decode_of_cut_reply {subtype : Nat} (tail : Bytes) (hsubtype : subtype ≤ 2)
    (htopic : topic.length ≤ maxTopicLength)
    (hcut : part <+: replyHead subtype topic :: (topicField topic ++ tail))
    (hshort : part.length < (replyHead subtype topic :: (topicField topic ++ tail)).length)
    (htail : tail = [] ∨
      subtype = 1 ∧ ∃ offset, offset ≤ Decimal.maxValue ∧ tail = Varint.encode offset) :
    Truncated (decode part) := by
  obtain ⟨hkind, hsame, hlength⟩ := replyHead_spec subtype hsubtype htopic
  obtain rfl | ⟨fields, rfl, hfields⟩ := List.prefix_cons_iff.mp hcut
  · exact ⟨_, rfl⟩
  · rw [List.length_cons, List.length_cons, Nat.add_lt_add_iff_right] at hshort
    rw [← hsame] at htail
    simp only [decode, hkind]
    exact decodeReply_of_cut hlength hfields hshort htail

theorem decode_of_cut_publish {data : Bytes} (hoffset : offset ≤ Decimal.maxValue)
    (htopic : topic.length ≤ maxTopicLength) (hcut : part <+: layout (publish offset topic data))
    (hshort : part.length + data.length < (layout (publish offset topic data)).length) :
    Truncated (decode part) := by
  obtain ⟨hkind, hcount, hlength⟩ := publishHead_spec hoffset htopic
  simp only [layout, List.cons_append, List.append_assoc, List.length_cons, List.length_append,
    Bytes.length_ofNatBE] at hcut hshort
  obtain rfl | ⟨fields, rfl, hfields⟩ := List.prefix_cons_iff.mp hcut
  · exact ⟨_, rfl⟩
  · rw [List.length_cons] at hshort
    simp only [decode, hkind]
    exact decodePublish_of_cut hcount hlength hfields (by omega)

/-- Bytes that lack part of a packet in front of its data are no packet. -/
theorem decode_of_cut (hfits : packet.Encodable) (hcut : part <+: packet.layout)
    (hshort : part.length + packet.dataLength < packet.encodedLength) : Truncated (decode part) := by
  obtain ⟨htopic, hoffset⟩ := hfits
  rw [← length_layout] at hshort
  cases packet with
  | publish offset topic data => exact decode_of_cut_publish hoffset htopic hcut hshort
  | ack topic =>
    apply decode_of_cut_reply [] (by decide : 0 ≤ 2) htopic
    · rwa [List.append_nil]
    · rwa [List.append_nil]
    · exact .inl rfl
  | reset topic offset =>
    exact decode_of_cut_reply _ (by decide) htopic hcut hshort (.inr ⟨rfl, offset, hoffset, rfl⟩)
  | failure topic =>
    apply decode_of_cut_reply [] (by decide : 2 ≤ 2) htopic
    · rwa [List.append_nil]
    · rwa [List.append_nil]
    · exact .inl rfl

theorem encode_of_encodable (hfits : packet.Encodable) : packet.encode = .ok packet.layout :=
  if_neg (not_lt.mpr hfits.1)

/-- A packet whose fields fit is written, in as many bytes as it says. From them it is read back, with
    any bytes missing in front of the data at its end it is truncated, and no other packet is written in
    the same bytes. -/
theorem encode_determines (hfits : packet.Encodable) :
    ∃ bytes, packet.encode = .ok bytes ∧ bytes.length = packet.encodedLength ∧
      decode bytes = .ok packet ∧
      (∀ part, part <+: bytes → part.length + packet.dataLength < packet.encodedLength →
        Truncated (decode part)) ∧
      ∀ other : Packet, other.Encodable → other.encode = .ok bytes → other = packet := by
  refine ⟨packet.layout, encode_of_encodable hfits, packet.length_layout, decode_layout hfits, ?_, ?_⟩
  · intro part hcut hshort
    exact decode_of_cut hfits hcut hshort
  · intro other hother hsame
    rw [encode_of_encodable hother] at hsame
    have hread := decode_layout hother
    rw [Except.ok.inj hsame, decode_layout hfits] at hread
    exact (Except.ok.inj hread).symm

/-- A reset that is cut between the two groups of its offset. -/
theorem reset_cut_in_offset :
    encode (reset [0x74] 300) = .ok [0x28, 1, 0x74, 0xac, 2] ∧
      decode [0x28, 1, 0x74, 0xac, 2] = .ok (reset [0x74] 300) ∧
      Truncated (decode [0x28, 1, 0x74, 0xac]) := by
  have hfits : Encodable (reset [0x74] 300) := ⟨by decide, by decide⟩
  have hoffset : Varint.encode 300 = [0xac, 2] := by
    rw [Varint.encode, if_neg (by decide), Varint.encode, if_pos (by decide)]
    rfl
  have hlayout : layout (reset [0x74] 300) = [0x28, 1, 0x74, 0xac, 2] := by
    rw [layout, hoffset]
    decide
  obtain ⟨bytes, hbytes, -, hread, hcut, -⟩ := encode_determines hfits
  obtain rfl : [0x28, 1, 0x74, 0xac, 2] = bytes := by
    rw [← hlayout]
    exact Except.ok.inj ((encode_of_encodable hfits).symm.trans hbytes)
  refine ⟨hbytes, hread, hcut _ ?_ (by decide)⟩
  exact ⟨[2], rfl⟩

end Packet

end ReplicatedLog
