import ReplicatedLog.Proofs.Wire.Truncation

namespace ReplicatedLog

namespace FixedWidth

/-- What is read is a field of the width that was asked for. -/
theorem field_of_decode {name : String} {width value : Nat} {bytes rest : Bytes}
    (hread : decode name width bytes = .ok (value, rest)) :
    ∃ field, bytes = field ++ rest ∧ field.length = width ∧ Bytes.toNatBE field = value := by
  unfold decode at hread
  split at hread
  · cases hread
  · split at hread
    · cases hread
    next hlong =>
      obtain ⟨rfl, rfl⟩ := Prod.mk.inj (Except.ok.inj hread)
      exact ⟨_, (List.take_append_drop width bytes).symm,
        List.length_take_of_le (Nat.not_lt.mp hlong), rfl⟩

/-- A field is no narrower than its number needs. -/
theorem width_toNatBE_le {field : Bytes} (hpos : 1 ≤ field.length) :
    width (Bytes.toNatBE field) ≤ field.length :=
  width_le (Bytes.toNatBE_lt field) hpos

end FixedWidth

namespace Packet

/-- A length in one to four bytes, and a topic of that length. -/
structure TopicForm (lengthField topic : Bytes) : Prop where
  pos : 1 ≤ lengthField.length
  le : lengthField.length ≤ 4
  tells : Bytes.toNatBE lengthField = topic.length

/-- What stands behind the topic of a reply, by the subtype of the reply. -/
inductive TailForm (topic : Bytes) : Nat → Bytes → Packet → Prop
  | ack : TailForm topic 0 [] (ack topic)
  | reset {groups : Bytes} {offset : Nat} (hoffset : Varint.Form groups offset) :
    TailForm topic 1 groups (reset topic offset)
  | failure : TailForm topic 2 [] (failure topic)

/-- The forms of a packet. The head of a publish tells the widths of its offset and of the length of its
    topic, each less one. The head of a reply tells its kind, which is 1, its subtype and the latter
    width, with a bit of any value between the two. -/
inductive Form : Packet → Bytes → Prop
  | publish {head : UInt8} {offsetField lengthField topic : Bytes} (data : Bytes)
      (hpos : 1 ≤ offsetField.length) (hmax : offsetField.length ≤ 8)
      (htopic : TopicForm lengthField topic)
      (hhead : head.toNat = (offsetField.length - 1) * 4 + (lengthField.length - 1)) :
    Form (publish (Bytes.toNatBE offsetField) topic data)
      (head :: (offsetField ++ (lengthField ++ (topic ++ data))))
  | reply {head : UInt8} {subtype spare : Nat} {lengthField topic tail : Bytes} {packet : Packet}
      (trailing : Bytes) (hspare : spare ≤ 1)
      (htopic : TopicForm lengthField topic) (htail : TailForm topic subtype tail packet)
      (hhead : head.toNat = 32 + subtype * 8 + spare * 4 + (lengthField.length - 1)) :
    Form packet (head :: (lengthField ++ (topic ++ (tail ++ trailing))))

/-- What can be wrong with bytes that are no packet. -/
inductive Unreadable : WireFault → Prop
  | truncated (cause : Truncation) : Unreadable (.truncated cause)
  | malformed (cause : Malformation) : Unreadable (.malformed cause)
  | varintOverflow : Unreadable .varintOverflow

variable {head : UInt8} {offset : Nat} {bytes rest lengthField topic : Bytes} {packet : Packet}

/-- A topic that was read stood behind its length. -/
theorem topicForm_of_decodeTopic {count : Nat} (hread : decodeTopic count bytes = .ok (topic, rest)) :
    ∃ lengthField, bytes = lengthField ++ (topic ++ rest) ∧ lengthField.length = count % 4 + 1 ∧
      TopicForm lengthField topic := by
  unfold decodeTopic at hread
  cases hlength : FixedWidth.decode "topic-len" (count % 4 + 1) bytes with
  | error fault => simp [hlength, bind, Except.bind] at hread
  | ok read =>
    obtain ⟨length, behind⟩ := read
    simp only [hlength, bind, Except.bind] at hread
    split at hread
    · cases hread
    next hlong =>
      obtain ⟨rfl, rfl⟩ := Prod.mk.inj (Except.ok.inj hread)
      obtain ⟨lengthField, rfl, hwidth, htells⟩ := FixedWidth.field_of_decode hlength
      have hcount : count % 4 < 4 := Nat.mod_lt _ (by decide)
      refine ⟨lengthField, by rw [List.take_append_drop], hwidth, by omega, by omega, ?_⟩
      rw [htells, List.length_take_of_le (Nat.not_lt.mp hlong)]

theorem Form.decode (hform : Form packet bytes) : decode bytes = .ok packet := by
  cases hform with
  | @publish head offsetField lengthField topic data hpos hmax htopic hhead =>
    have hwidth := htopic.le
    have hkind : head.toNat / 32 = 0 := by omega
    have hcount : head.toNat / 4 % 8 + 1 = offsetField.length := by omega
    have hoffset := FixedWidth.decode_append "offset" hpos hmax (lengthField ++ (topic ++ data))
    have hpos' := htopic.pos
    have hlength : head.toNat % 4 + 1 = lengthField.length := by omega
    have hread := decodeTopic_append hlength htopic.tells data
    simp only [Packet.decode, hkind, decodePublish, hcount, hoffset, hread, bind, Except.bind]
  | @reply head subtype spare lengthField topic tail packet trailing hspare htopic htail hhead =>
    have hpos := htopic.pos
    have hwidth := htopic.le
    have hsub : subtype ≤ 2 := by cases htail <;> decide
    have hkind : head.toNat / 32 = 1 := by omega
    have hsame : head.toNat / 8 % 4 = subtype := by omega
    have hlength : head.toNat % 4 + 1 = lengthField.length := by omega
    have hread := decodeTopic_append hlength htopic.tells (tail ++ trailing)
    simp only [Packet.decode, hkind, decodeReply, hread, hsame, bind, Except.bind]
    cases htail with
    | ack => rfl
    | reset hoffset =>
      have hnumber := hoffset.decode_append trailing
      simp only [hnumber]
    | failure => rfl

theorem form_of_decodePublish (hkind : head.toNat / 32 = 0)
    (hread : decodePublish head.toNat bytes = .ok packet) : Form packet (head :: bytes) := by
  unfold decodePublish at hread
  cases hoffset : FixedWidth.decode "offset" (head.toNat / 4 % 8 + 1) bytes with
  | error fault => simp [hoffset, bind, Except.bind] at hread
  | ok read =>
    obtain ⟨offset, behind⟩ := read
    cases htopic : decodeTopic head.toNat behind with
    | error fault => simp [hoffset, htopic, bind, Except.bind] at hread
    | ok found =>
      obtain ⟨topic, data⟩ := found
      simp only [hoffset, htopic, bind, Except.bind, Except.ok.injEq] at hread
      obtain ⟨offsetField, rfl, hwidth, rfl⟩ := FixedWidth.field_of_decode hoffset
      obtain ⟨lengthField, rfl, hlength, hform⟩ := topicForm_of_decodeTopic htopic
      rw [← hread]
      exact .publish data (by omega) (by omega) hform (by omega)

theorem form_of_decodeReply (hkind : head.toNat / 32 = 1)
    (hread : decodeReply head.toNat bytes = .ok packet) : Form packet (head :: bytes) := by
  unfold decodeReply at hread
  cases htopic : decodeTopic head.toNat bytes with
  | error fault => simp [htopic, bind, Except.bind] at hread
  | ok found =>
    obtain ⟨topic, behind⟩ := found
    obtain ⟨lengthField, rfl, hlength, hform⟩ := topicForm_of_decodeTopic htopic
    simp only [htopic, bind, Except.bind] at hread
    -- the spare bit is whatever the head holds between the subtype and the width
    have hform' : ∀ {subtype : Nat} {tail trailing : Bytes}, head.toNat / 8 % 4 = subtype →
        TailForm topic subtype tail packet →
        Form packet (head :: (lengthField ++ (topic ++ (tail ++ trailing)))) := by
      intro subtype tail trailing hsubtype htail
      have hspare : head.toNat / 4 % 2 ≤ 1 := by omega
      exact .reply trailing hspare hform htail (by omega)
    split at hread
    next hsubtype =>
      obtain rfl := Except.ok.inj hread
      exact @hform' _ [] _ hsubtype .ack
    next hsubtype =>
      rcases hnumber : Varint.decode behind with ⟨_ | offset, trailing⟩
      · simp [hnumber] at hread
      · simp only [hnumber, Except.ok.injEq] at hread
        obtain ⟨groups, rfl, hgroups⟩ := Varint.decode_eq_ok_iff.mp hnumber
        subst hread
        exact hform' hsubtype (.reset hgroups)
    next hsubtype =>
      obtain rfl := Except.ok.inj hread
      exact @hform' _ [] _ hsubtype .failure
    next => cases hread

/-- A packet is read from its forms and from nothing else. -/
theorem decode_eq_ok_iff : decode bytes = .ok packet ↔ Form packet bytes := by
  constructor
  · intro hread
    unfold decode at hread
    split at hread
    · cases hread
    next head rest =>
      split at hread
      next hkind => exact form_of_decodePublish hkind hread
      next hkind => exact form_of_decodeReply hkind hread
      next => cases hread
  · exact Form.decode

theorem unreadable_of_fixedWidth {name : String} {width : Nat} {fault : WireFault}
    (hread : FixedWidth.decode name width bytes = .error fault) : Unreadable fault := by
  unfold FixedWidth.decode at hread
  split at hread
  · exact Except.error.inj hread ▸ .malformed _
  · split at hread
    · exact Except.error.inj hread ▸ .truncated _
    · cases hread

theorem unreadable_of_decodeTopic {count : Nat} {fault : WireFault}
    (hread : decodeTopic count bytes = .error fault) : Unreadable fault := by
  unfold decodeTopic at hread
  cases hlength : FixedWidth.decode "topic-len" (count % 4 + 1) bytes with
  | error cause =>
    simp only [hlength, bind, Except.bind, Except.error.injEq] at hread
    exact hread ▸ unreadable_of_fixedWidth hlength
  | ok read =>
    simp only [hlength, bind, Except.bind] at hread
    split at hread
    · exact Except.error.inj hread ▸ .truncated _
    · cases hread

theorem unreadable_of_decodePublish {count : Nat} {fault : WireFault}
    (hread : decodePublish count bytes = .error fault) : Unreadable fault := by
  unfold decodePublish at hread
  cases hoffset : FixedWidth.decode "offset" (count / 4 % 8 + 1) bytes with
  | error cause =>
    simp only [hoffset, bind, Except.bind, Except.error.injEq] at hread
    exact hread ▸ unreadable_of_fixedWidth hoffset
  | ok read =>
    obtain ⟨offset, behind⟩ := read
    cases htopic : decodeTopic count behind with
    | error cause =>
      simp only [hoffset, htopic, bind, Except.bind, Except.error.injEq] at hread
      exact hread ▸ unreadable_of_decodeTopic htopic
    | ok found => simp [hoffset, htopic, bind, Except.bind] at hread

theorem unreadable_of_decodeReply {count : Nat} {fault : WireFault}
    (hread : decodeReply count bytes = .error fault) : Unreadable fault := by
  unfold decodeReply at hread
  cases htopic : decodeTopic count bytes with
  | error cause =>
    simp only [htopic, bind, Except.bind, Except.error.injEq] at hread
    exact hread ▸ unreadable_of_decodeTopic htopic
  | ok found =>
    obtain ⟨topic, behind⟩ := found
    simp only [htopic, bind, Except.bind] at hread
    split at hread
    · cases hread
    · rcases hnumber : Varint.decode behind with ⟨cause | offset, trailing⟩
      · simp only [hnumber, Except.error.injEq] at hread
        obtain rfl | rfl := Varint.fault_of_decodeFrom hnumber
        · exact hread ▸ .truncated _
        · exact hread ▸ .varintOverflow
      · simp [hnumber] at hread
    · cases hread
    · exact Except.error.inj hread ▸ .malformed _

theorem unreadable_of_decode {fault : WireFault} (hread : decode bytes = .error fault) :
    Unreadable fault := by
  unfold decode at hread
  split at hread
  · exact Except.error.inj hread ▸ .truncated _
  · split at hread
    · exact unreadable_of_decodePublish hread
    · exact unreadable_of_decodeReply hread
    · exact Except.error.inj hread ▸ .malformed _

theorem TopicForm.length_le (htopic : TopicForm lengthField topic) :
    topic.length ≤ maxTopicLength := by
  have hlt := Bytes.toNatBE_lt lengthField
  have hpow : 256 ^ lengthField.length ≤ 256 ^ 4 := Nat.pow_le_pow_right (by decide) htopic.le
  have hmax : maxTopicLength + 1 = 256 ^ 4 := by decide
  have htells := htopic.tells
  omega

theorem TopicForm.width_le (htopic : TopicForm lengthField topic) :
    FixedWidth.width topic.length ≤ lengthField.length :=
  htopic.tells ▸ FixedWidth.width_toNatBE_le htopic.pos

/-- What was read can be written. -/
theorem Form.encodable (hform : Form packet bytes) : packet.Encodable := by
  cases hform with
  | @publish head offsetField lengthField topic data hpos hmax htopic hhead =>
    have hlt := Bytes.toNatBE_lt offsetField
    have hpow : 256 ^ offsetField.length ≤ 256 ^ 8 := Nat.pow_le_pow_right (by decide) hmax
    have hfits : Decimal.maxValue + 1 = 256 ^ 8 := by decide
    exact ⟨htopic.length_le, by dsimp only; omega⟩
  | reply trailing hspare htopic htail hhead =>
    cases htail with
    | ack => exact ⟨htopic.length_le, trivial⟩
    | reset hoffset => exact ⟨htopic.length_le, hoffset.fits⟩
    | failure => exact ⟨htopic.length_le, trivial⟩

/-- No form of a packet is shorter than what is written for it. -/
theorem Form.encodedLength_le (hform : Form packet bytes) : packet.encodedLength ≤ bytes.length := by
  cases hform with
  | publish data hpos hmax htopic hhead =>
    have hoffset := FixedWidth.width_toNatBE_le hpos
    have hlength := htopic.width_le
    simp only [encodedLength, Packet.topic, List.length_cons, List.length_append]
    omega
  | reply trailing hspare htopic htail hhead =>
    have hlength := htopic.width_le
    cases htail with
    | reset hoffset =>
      have hgroups := hoffset.made.length_le
      simp only [encodedLength, Packet.topic, List.length_cons, List.length_append]
      omega
    | _ =>
      simp only [encodedLength, Packet.topic, List.length_cons, List.length_append]
      omega

/-- Bytes are read as a packet if and only if they have a form of it, and otherwise they are truncated,
    malformed, or hold too large a number. What is written for a packet that was read is read as the same
    packet, and it is as short as any bytes that are. -/
theorem decode_accepts_forms (bytes : Bytes) :
    (∀ packet, decode bytes = .ok packet ↔ Form packet bytes) ∧
      (∀ fault, decode bytes = .error fault → Unreadable fault) ∧
      ∀ packet, decode bytes = .ok packet →
        packet.encodedLength ≤ bytes.length ∧
          ∃ written, packet.encode = .ok written ∧ written.length = packet.encodedLength ∧
            decode written = .ok packet ∧
            ∀ other, decode other = .ok packet → written.length ≤ other.length := by
  refine ⟨fun packet => decode_eq_ok_iff, fun fault => unreadable_of_decode, ?_⟩
  intro packet hread
  have hform := decode_eq_ok_iff.mp hread
  have hfits := hform.encodable
  refine ⟨hform.encodedLength_le, packet.layout, encode_of_encodable hfits, packet.length_layout,
    decode_layout hfits, ?_⟩
  intro other hother
  rw [length_layout]
  exact (decode_eq_ok_iff.mp hother).encodedLength_le

/-- A reset with a wide length of its topic, groups to spare in its offset, the meaningless bit set and a
    byte behind it is read, and it is written without any of these. -/
theorem decode_wide_reset :
    decode [0x2d, 0, 1, 0x74, 0xac, 0x82, 0, 0xff] = .ok (reset [0x74] 300) ∧
      ∃ written, encode (reset [0x74] 300) = .ok written ∧ written.length = 5 ∧
        decode written = .ok (reset [0x74] 300) := by
  have hread : decode [0x2d, 0, 1, 0x74, 0xac, 0x82, 0, 0xff] = .ok (reset [0x74] 300) := by decide
  obtain ⟨-, written, hwritten, hlength, hback, -⟩ := (decode_accepts_forms _).2.2 _ hread
  exact ⟨hread, written, hwritten, hlength.trans (by decide), hback⟩

end Packet

end ReplicatedLog
