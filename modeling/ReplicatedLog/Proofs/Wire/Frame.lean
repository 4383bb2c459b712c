import ReplicatedLog.Proofs.Wire.Packet
import ReplicatedLog.Wire.Frame

namespace ReplicatedLog

namespace Frame

/-- The topic of a packet that fits into a frame fits its field. -/
theorem topic_length_le {packet : Packet} (hlength : packet.encodedLength ≤ maxLength) :
    packet.topic.length ≤ Packet.maxTopicLength :=
  packet.topic_length_le.trans (hlength.trans (by decide))

/-- A packet goes behind what is there, in a frame of its own, unless it is too long for one. Then
    nothing is written, as its topic is too long only where it is too long itself. -/
theorem write_eq (packet : Packet) (out : Bytes) :
    write packet out =
      if maxLength < packet.encodedLength then (.error (.frameTooLarge packet.encodedLength), out)
      else (.ok (), out ++ wrap packet.layout) := by
  by_cases hlong : maxLength < packet.encodedLength
  · simp only [write, head, if_pos hlong]
  · have htopic := not_lt.mpr (topic_length_le (not_lt.mp hlong))
    simp only [write, head, if_neg hlong, Packet.encode, if_neg htopic, wrap, packet.length_layout,
      List.append_assoc]

theorem encode_eq_ok {packet : Packet} {frame : Bytes} (hframe : encode packet = .ok frame) :
    frame = wrap packet.layout ∧ packet.layout.length ≤ maxLength ∧
      packet.topic.length ≤ Packet.maxTopicLength := by
  rw [encode, write_eq] at hframe
  by_cases hlong : maxLength < packet.encodedLength
  · simp [hlong, Except.map] at hframe
  · rw [if_neg hlong, List.nil_append] at hframe
    refine ⟨(Except.ok.inj hframe).symm, ?_, topic_length_le (not_lt.mp hlong)⟩
    rw [packet.length_layout]
    exact not_lt.mp hlong

/-- A packet that is short enough has a frame. -/
theorem exists_encode {packet : Packet} (hlength : packet.encodedLength ≤ maxLength) :
    ∃ frame, encode packet = .ok frame := by
  refine ⟨wrap packet.layout, ?_⟩
  rw [encode, write_eq, if_neg (not_lt.mpr hlength), List.nil_append]
  rfl

end Frame

namespace FrameReader

/-- The body of a frame is the next one of an idle reader. -/
theorem nextBody_feed_wrap {body : Bytes} (hlength : body.length ≤ Frame.maxLength) :
    (feed {} (Frame.wrap body)).nextBody = (.ok (some body), {}) := by
  have hfits : body.length < 256 ^ Frame.headLength := lt_of_le_of_lt hlength (by decide)
  have hhead := Bytes.length_ofNatBE Frame.headLength body.length
  have htake := @List.take_left _ (Bytes.ofNatBE Frame.headLength body.length) body
  have hdrop := @List.drop_left _ (Bytes.ofNatBE Frame.headLength body.length) body
  rw [hhead] at htake hdrop
  have hannounced : (feed {} (Frame.wrap body)).announced = body.length := by
    simp only [announced, feed, List.nil_append, Frame.wrap, htake]
    exact Bytes.toNatBE_ofNatBE hfits
  have hrest : (feed {} (Frame.wrap body)).dropHead = ⟨none, body⟩ := by
    simp only [dropHead, feed, List.nil_append, Frame.wrap, hdrop]
  have henough : ¬ (feed {} (Frame.wrap body)).buffer.length < Frame.headLength := by
    simp [feed, Frame.wrap]
  have hawaited : (feed {} (Frame.wrap body)).awaited = none := rfl
  simp only [nextBody, hawaited, if_neg henough, hannounced, if_neg (not_lt.mpr hlength), hrest]
  simp [takeBody, Prod.map]

theorem drain_idle : drain {} = ([], {}) := by
  rw [drain]
  rfl

/-- A frame that arrives whole is the only one, whatever its body decodes to. -/
theorem drain_feed_body {body : Bytes} (hlength : body.length ≤ Frame.maxLength) :
    (feed {} (Frame.wrap body)).drain = ([Packet.decode body], {}) := by
  have hnext := nextBody_feed_wrap hlength
  rw [drain]
  split
  next fault reader hbody => simp [hbody] at hnext
  next reader hbody => simp [hbody] at hnext
  next found next hbody =>
    rw [hbody] at hnext
    obtain ⟨hsame, rfl⟩ := Prod.mk.inj hnext
    obtain rfl := Option.some.inj (Except.ok.inj hsame)
    simp only [drain_idle, packetOf]

/-- What arrives whole is the only packet. -/
theorem drain_feed_wrap {packet : Packet} (hfits : packet.Encodable)
    (hlength : packet.layout.length ≤ Frame.maxLength) :
    (feed {} (Frame.wrap packet.layout)).drain = ([.ok packet], {}) := by
  rw [drain_feed_body hlength, Packet.decode_layout hfits]

end FrameReader

end ReplicatedLog
