import ReplicatedLog.Proofs.Replication.Serving

namespace ReplicatedLog

namespace Packet

variable {packet : Packet} {topic other : String}

/-- The packets about a topic, in order. -/
def about (topic : String) (packets : List Packet) : List Packet :=
  packets.filter fun packet => packet.topic = Utf8.encode topic

theorem about_append (topic : String) (front back : List Packet) :
    about topic (front ++ back) = about topic front ++ about topic back :=
  List.filter_append _ _

theorem about_cons_self (htopic : packet.topic = Utf8.encode topic) (rest : List Packet) :
    about topic (packet :: rest) = packet :: about topic rest :=
  List.filter_cons_of_pos (by simpa using htopic)

theorem about_cons_of_ne (htopic : packet.topic = Utf8.encode topic) (hne : other ≠ topic)
    (rest : List Packet) : about other (packet :: rest) = about other rest := by
  refine List.filter_cons_of_neg ?_
  rw [htopic, decide_eq_true_iff, Utf8.encode_inj]
  exact hne.symm

theorem about_insert_self (htopic : packet.topic = Utf8.encode topic) (front back : List Packet) :
    about topic (front ++ packet :: back) = about topic front ++ packet :: about topic back := by
  rw [about_append, about_cons_self htopic]

theorem about_insert_of_ne (htopic : packet.topic = Utf8.encode topic) (hne : other ≠ topic)
    (front back : List Packet) :
    about other (front ++ packet :: back) = about other (front ++ back) := by
  rw [about_append, about_cons_of_ne htopic hne, ← about_append]

end Packet

/-- Each frame is that of a packet. -/
def Framed (frames : List Bytes) (packets : List Packet) : Prop :=
  List.Forall₂ (fun frame packet => Frame.encode packet = .ok frame) frames packets

/-- Every packet has its frame. -/
theorem Framed.exists_frame {frames : List Bytes} {packets : List Packet}
    (hframed : Framed frames packets) {packet : Packet} (hmem : packet ∈ packets) :
    ∃ frame ∈ frames, Frame.encode packet = .ok frame := by
  induction hframed with
  | nil => cases hmem
  | cons hframe _ ih =>
    rcases List.mem_cons.mp hmem with rfl | hrest
    · exact ⟨_, List.mem_cons_self, hframe⟩
    · obtain ⟨frame, hfound, hencode⟩ := ih hrest
      exact ⟨frame, List.mem_cons_of_mem _ hfound, hencode⟩

/-- A reply that can be read again, about a topic with a name that a directory can have. -/
structure Packet.Replies (packet : Packet) (topic : String) : Prop where
  isReply : packet.IsReply
  encodable : packet.Encodable
  short : topic.utf8ByteSize ≤ maxNameLength
  named : packet.topic = Utf8.encode topic

/-- The publishes and the replies under way, with their frames. -/
structure Flight (sent answered : List Bytes) (publishes replies : List Packet) : Prop where
  outward : Framed sent publishes
  inward : Framed answered replies
  publish : ∀ packet ∈ publishes, ∃ topic offset data, topic.utf8ByteSize ≤ maxNameLength ∧
    packet = .publish offset (Utf8.encode topic) data
  reply : ∀ packet ∈ replies, ∃ topic, packet.Replies topic

namespace Flight

variable {sent answered : List Bytes} {publishes replies : List Packet} {frame : Bytes}
  {topic : String} {offset : Nat} {data : Bytes} {packet reply : Packet}

theorem nil : Flight [] [] [] [] :=
  ⟨.nil, .nil, nofun, nofun⟩

/-- A publish is sent behind the others. -/
theorem send (hflight : Flight sent answered publishes replies)
    (hshort : topic.utf8ByteSize ≤ maxNameLength)
    (hframe : Frame.encode (.publish offset (Utf8.encode topic) data) = .ok frame) :
    Flight (sent ++ [frame]) answered
      (publishes ++ [.publish offset (Utf8.encode topic) data]) replies := by
  refine ⟨List.rel_append hflight.outward (.cons hframe .nil), hflight.inward, fun other hmem => ?_,
    hflight.reply⟩
  rcases List.mem_append.mp hmem with hold | hnew
  · exact hflight.publish other hold
  · exact ⟨topic, offset, data, hshort, List.mem_singleton.mp hnew⟩

theorem exists_publish (hflight : Flight (frame :: sent) answered publishes replies) :
    ∃ topic offset data back, publishes = .publish offset (Utf8.encode topic) data :: back ∧
      topic.utf8ByteSize ≤ maxNameLength ∧
      Frame.encode (.publish offset (Utf8.encode topic) data) = .ok frame := by
  obtain ⟨houtward, -, hpublish, -⟩ := hflight
  cases houtward with
  | cons hframe hrest =>
    obtain ⟨topic, offset, data, hshort, rfl⟩ := hpublish _ List.mem_cons_self
    exact ⟨topic, offset, data, _, rfl, hshort, hframe⟩

/-- The first publish is answered behind the other replies. -/
theorem answer (hflight : Flight (frame :: sent) answered (packet :: publishes) replies)
    (hreply : reply.Replies topic) {bytes : Bytes} (hframe : Frame.encode reply = .ok bytes) :
    Flight sent (answered ++ [bytes]) publishes (replies ++ [reply]) := by
  obtain ⟨houtward, hinward, hpublish, hreplies⟩ := hflight
  refine ⟨(List.forall₂_cons.mp houtward).2, List.rel_append hinward (.cons hframe .nil),
    fun other hmem => hpublish other (List.mem_cons_of_mem _ hmem), fun other hmem => ?_⟩
  rcases List.mem_append.mp hmem with hold | hnew
  · exact hreplies other hold
  · exact ⟨topic, List.mem_singleton.mp hnew ▸ hreply⟩

theorem exists_reply (hflight : Flight sent (frame :: answered) publishes replies) :
    ∃ reply back topic, replies = reply :: back ∧ reply.Replies topic ∧
      Frame.encode reply = .ok frame := by
  obtain ⟨-, hinward, -, hreplies⟩ := hflight
  cases hinward with
  | cons hframe hrest =>
    obtain ⟨topic, hreply⟩ := hreplies _ List.mem_cons_self
    exact ⟨_, _, topic, rfl, hreply, hframe⟩

/-- The first reply arrives. -/
theorem take (hflight : Flight sent (frame :: answered) publishes (reply :: replies)) :
    Flight sent answered publishes replies :=
  ⟨hflight.outward, (List.forall₂_cons.mp hflight.inward).2, hflight.publish, fun other hmem =>
    hflight.reply other (List.mem_cons_of_mem _ hmem)⟩

end Flight

end ReplicatedLog
