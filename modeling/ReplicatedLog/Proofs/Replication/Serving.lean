import ReplicatedLog.Proofs.Store.Writing
import ReplicatedLog.Proofs.Wire.Frame
import ReplicatedLog.Replication.ServicePeer

namespace ReplicatedLog

/-- Ten bytes are enough for any offset. -/
theorem Varint.length_le {number : Nat} (hfits : number ≤ Decimal.maxValue) : length number ≤ 10 := by
  unfold length
  by_cases hzero : number = 0
  · simp [hzero]
  · have hlog : Nat.log2 number < 64 := (Nat.log2_lt hzero).mpr (lt_of_le_of_lt hfits (by decide))
    rw [if_neg hzero]
    omega

/-- A packet that a service sends. -/
def Packet.IsReply : Packet → Prop
  | .publish .. => False
  | .ack _ | .reset .. | .failure _ => True

/-- How a service tells what became of a publish. -/
def PublishOutcome.reply (topic : Bytes) : PublishOutcome → Packet
  | .written => .ack topic
  | .reset maxOffset => .reset topic maxOffset
  | .failed _ => .failure topic

theorem PublishOutcome.topic_reply (topic : Bytes) (outcome : PublishOutcome) :
    (outcome.reply topic).topic = topic := by
  cases outcome <;> rfl

theorem PublishOutcome.isReply_reply (outcome : PublishOutcome) (topic : Bytes) :
    (outcome.reply topic).IsReply := by
  cases outcome <;> trivial

/-- A reply about a topic with a short name fits into a frame, and is read as it was written. -/
theorem PublishOutcome.encode_reply {topic : Bytes} (htopic : topic.length ≤ maxNameLength)
    {outcome : PublishOutcome}
    (hfits : ∀ maxOffset, outcome = .reset maxOffset → maxOffset ≤ Decimal.maxValue) :
    (∃ frame, Frame.encode (outcome.reply topic) = .ok frame) ∧
      (outcome.reply topic).Encodable := by
  have hshort : topic.length ≤ Packet.maxTopicLength := htopic.trans (by decide)
  have hwidth := Packet.width_topic_le hshort
  have hbound : maxNameLength + 20 ≤ Frame.maxLength := by decide
  cases outcome with
  | written =>
    refine ⟨Frame.exists_encode ?_, hshort, trivial⟩
    simp only [PublishOutcome.reply, Packet.encodedLength, Packet.topic]
    omega
  | reset maxOffset =>
    have hoffset := hfits maxOffset rfl
    have hlength : Varint.length maxOffset ≤ 10 := Varint.length_le hoffset
    refine ⟨Frame.exists_encode ?_, hshort, hoffset⟩
    simp only [PublishOutcome.reply, Packet.encodedLength, Packet.topic]
    omega
  | failed fault =>
    refine ⟨Frame.exists_encode ?_, hshort, trivial⟩
    simp only [PublishOutcome.reply, Packet.encodedLength, Packet.topic]
    omega

namespace Service

variable {service : Service} {rollSize : Nat}

/-- A publish for the only handler, the store. -/
theorem publish_eq (hhandlers : service.handlers = [.store rollSize]) (topic : String)
    (offset : Nat) (data : Bytes) (now : Instant) :
    (service.publish (Utf8.encode topic) offset data now).1 =
        (service.store.publish topic offset data rollSize now).1.reply (Utf8.encode topic) ∧
      (service.publish (Utf8.encode topic) offset data now).2.store =
        (service.store.publish topic offset data rollSize now).2 ∧
      (service.publish (Utf8.encode topic) offset data now).2.handlers = [.store rollSize] := by
  have houtcome : service.outcome (Utf8.encode topic) offset data now =
      ((service.store.publish topic offset data rollSize now).1,
        { service with store := (service.store.publish topic offset data rollSize now).2 }) := by
    simp only [outcome, Utf8.decode?_encode, hhandlers, List.isEmpty_cons, Bool.false_eq_true,
      if_false, handleAll, handle]
    rcases service.store.publish topic offset data rollSize now with ⟨_ | _ | _, store⟩ <;> rfl
  unfold publish
  rw [houtcome]
  rcases service.store.publish topic offset data rollSize now with ⟨_ | _ | _, store⟩ <;>
    exact ⟨rfl, rfl, hhandlers⟩

end Service

namespace ServicePeer

variable {peer : ServicePeer} {rollSize : Nat}

/-- A whole publish is answered at once by one whole frame. -/
theorem receive_spec (hidle : peer.connection = {})
    (hhandlers : peer.service.handlers = [.store rollSize]) {topic : String} {offset : Nat}
    {data frame : Bytes} (hoffset : offset ≤ Decimal.maxValue)
    (hframe : Frame.encode (.publish offset (Utf8.encode topic) data) = .ok frame) (time : Nat)
    {reply : Bytes} (hreply : Frame.encode
      ((peer.service.store.publish topic offset data rollSize (.ofNanos time)).1.reply
        (Utf8.encode topic)) = .ok reply) :
    (peer.receive time frame).1 = { bytes := reply } ∧
      (peer.receive time frame).2.connection = {} ∧
      (peer.receive time frame).2.service.handlers = [.store rollSize] ∧
      (peer.receive time frame).2.service.store =
        (peer.service.store.publish topic offset data rollSize (.ofNanos time)).2 := by
  obtain ⟨rfl, hlength, htopic⟩ := Frame.encode_eq_ok hframe
  have hfits : Packet.Encodable (.publish offset (Utf8.encode topic) data) := ⟨htopic, hoffset⟩
  have hdrain := FrameReader.drain_feed_wrap hfits hlength
  obtain ⟨hpacket, hstore, hkept⟩ :=
    Service.publish_eq hhandlers topic offset data (.ofNanos time)
  unfold receive Service.receive
  simp only [hidle, hdrain, Bool.false_eq_true, if_false, Service.handlePackets]
  refine ⟨?_, rfl, hkept, hstore⟩
  simp [frames, hpacket, hreply, Except.toOption]

end ServicePeer

end ReplicatedLog
