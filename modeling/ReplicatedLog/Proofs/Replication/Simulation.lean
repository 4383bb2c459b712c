import ReplicatedLog.Proofs.Replication.Reflection

namespace ReplicatedLog.System

variable {system : System} {publishes replies : List Packet} {exchanges : String → Exchange}
  {topic : String}

/-- What is appended becomes part of history, unless the name of its topic is invalid. -/
theorem Reflects.append (hreflects : system.Reflects publishes replies exchanges)
    (hshort : topic.utf8ByteSize ≤ maxNameLength) (data : Bytes) (rollSize : Nat) {now : Instant}
    (hnow : now.InCalendar)
    (hfits : ∀ stored, system.producer.store.current topic = .ok stored →
      stored.log.maxOffset + data.length ≤ Decimal.maxValue) :
    ∃ exchange, (exchanges topic).Step topic (.append topic data rollSize now) exchange ∧
      (Topic.IsValid topic → exchange.history = (exchanges topic).history ++ data) ∧
      (system.perform (.append topic data rollSize now)).Reflects publishes replies
        (Function.update exchanges topic exchange) := by
  obtain ⟨⟨stored, hstored, hfirst⟩, -, -, -⟩ := hreflects.shows topic hshort
  have hlength : ((exchanges topic).history ++ data).length ≤ Decimal.maxValue := by
    rw [List.length_append, hstored.keeps.1]
    exact hfits stored hstored.current
  obtain ⟨later, more, hturns, hsame, rfl | ⟨hinvalid, rfl⟩⟩ :=
    hstored.append_spec hreflects.sound.producer hshort data rollSize hnow hlength
  · have hstep : (exchanges topic).Step topic (.append topic data rollSize now)
        { exchanges topic with history := (exchanges topic).history ++ data } :=
      .grown data rollSize now rfl
    exact ⟨_, hstep, fun _ => rfl,
      hreflects.turn_alone hshort hturns rfl (hsame.trans hfirst) hstep⟩
  · have haside : (exchanges topic).Step topic (.append topic data rollSize now) (exchanges topic) :=
      .aside
    exact ⟨_, haside, fun hvalid => absurd hvalid hinvalid,
      hreflects.turn_alone hshort hturns rfl (hsame.trans hfirst) haside⟩

/-- A cleanup of a topic, whichever it is, stays behind every reader. -/
theorem Reflects.clean (hreflects : system.Reflects publishes replies exchanges)
    (hshort : topic.utf8ByteSize ≤ maxNameLength) {α : Type}
    {work : StoredLog → Except Fault α × StoredLog} {action : Action}
    (haction : (∃ retain now, action = .cleanup topic retain now) ∨
      ∃ retain external now, action = .cleanupAll topic retain external now)
    (hwork : ∀ stored history, stored.Keeps history → (work stored).2.Keeps history ∧
      (∃ gate, gate ≤ stored.log.gate ∧ stored.log.Cleaned gate (work stored).2.log) ∧
      (work stored).2.dir.nextId = stored.dir.nextId) :
    Advances exchanges action { system with
      producer := (system.producer.change fun store => store.onTopic topic work).2 } := by
  obtain ⟨⟨stored, hstored, hfirst⟩, -, -, -⟩ := hreflects.shows topic hshort
  obtain ⟨hkeeps, ⟨gate, hgate, hcleaned⟩, hid⟩ := hwork stored _ hstored.keeps
  obtain ⟨later, hturns, hlater⟩ :=
    hstored.clean_spec hreflects.sound.producer hshort hkeeps hcleaned hgate hid
  refine hreflects.advances_alone hshort hturns rfl rfl (.cleaned _ haction fun place hplace => ?_)
  have hstands := hstored.stands
  rw [hplace] at hstands
  obtain ⟨_, _, -, -, htracked, hoffset, -⟩ := hstands.exists_tracked
  have hbefore := hgate.trans (TopicLog.gate_le htracked.found)
  exact hlater.firstOffset_le.trans (max_le_max hfirst.le (hbefore.trans hoffset.le))

/-- A topic that was taken up is replicated from the wanted offset on. -/
theorem Reflects.joins (hreflects : system.Reflects publishes replies exchanges)
    (hshort : topic.utf8ByteSize ≤ maxNameLength) {offset : Nat} {action : Action}
    (haction : action.Joins topic offset) {stored : StoredLog} {producer : Producer}
    (hfirst : stored.log.firstOffset = (exchanges topic).first)
    (hjoins : system.producer.Joins topic stored (exchanges topic).history
      (exchanges topic).standing offset producer)
    (hsinks : producer.sinks = system.producer.sinks) :
    Advances exchanges action { system with producer } := by
  obtain ⟨later, place, hturns, hsame, hplace⟩ := hjoins
  refine hreflects.advances_alone hshort hturns hsinks (hsame.trans hfirst) ?_
  rcases hplace with rfl | ⟨hnone, rfl, hstart⟩
  · exact .aside
  · exact .joined offset haction hnone (hfirst ▸ hstart)

theorem Reflects.register (hreflects : system.Reflects publishes replies exchanges)
    (hshort : topic.utf8ByteSize ≤ maxNameLength) (offset : Nat) :
    (system.perform (.register topic offset)).Advances exchanges (.register topic offset) := by
  obtain ⟨⟨stored, hstored, hfirst⟩, -, -, -⟩ := hreflects.shows topic hshort
  exact hreflects.joins hshort (Or.inl rfl) hfirst
    (hstored.register_spec hreflects.sound.producer hshort offset)
    (system.producer.sinks_register topic offset)

theorem Reflects.enlist (hreflects : system.Reflects publishes replies exchanges)
    (hshort : topic.utf8ByteSize ≤ maxNameLength) (name : String) (offset : Nat) :
    (system.perform (.enlist topic name offset)).Advances exchanges (.enlist topic name offset) := by
  obtain ⟨⟨stored, hstored, hfirst⟩, -, -, -⟩ := hreflects.shows topic hshort
  exact hreflects.joins hshort (Or.inr ⟨name, rfl⟩) hfirst
    (hstored.enlist_spec hreflects.sound.producer hshort name offset)
    (system.producer.sinks_enlist topic name offset)

theorem Reflects.remove (hreflects : system.Reflects publishes replies exchanges) (handle : Handle) :
    (system.perform (.remove handle)).Advances exchanges (.remove handle) := by
  simp only [perform, Client.remove]
  cases hpublication : system.producer.client.publications.find? fun publication =>
      publication.handle = handle with
  | none => exact hreflects.advances_self _
  | some publication =>
    have hmem := List.mem_of_find?_eq_some hpublication
    have hfound := hreflects.sound.distinct publication hmem
    have hshort := hreflects.sound.short _ _ hfound
    obtain ⟨⟨stored, hstored, hfirst⟩, -, -, -⟩ := hreflects.shows publication.topic hshort
    obtain ⟨later, hturns, hsame⟩ := hstored.release_spec hreflects.sound.producer hfound
    exact hreflects.advances_alone hshort hturns rfl (hsame.trans hfirst) (.left handle rfl)

theorem publish_of_linked {reader : FrameReader} (hlink : system.link = some reader) (topic : String)
    (moment : Moment) :
    system.publish topic moment = system.sends (system.producer.publish topic moment) := by
  simp only [System.publish, hlink]

/-- A client that connects has nothing under way. -/
theorem Reflects.connect (hreflects : system.Reflects publishes replies exchanges) :
    system.connect.Reflects publishes replies exchanges := by
  unfold System.connect
  cases hlink : system.link with
  | some reader => exact hreflects
  | none => exact hreflects.congr rfl rfl rfl rfl rfl rfl rfl (Or.inr ⟨rfl, rfl⟩)

/-- A frame that was published is under way from then on. -/
theorem Reflects.sends (hreflects : system.Reflects publishes replies exchanges)
    (hlinked : system.link = some {} ∧ system.peer.connection = {})
    (hshort : topic.utf8ByteSize ≤ maxNameLength) {offset length : Nat} {later : StoredLog}
    {producer : Producer} {frame : Bytes}
    (hplace : (exchanges topic).standing = some ⟨offset, none⟩)
    (hturns : system.producer.Turns topic later (exchanges topic).history
      (some ⟨offset, some length⟩) producer)
    (hsinks : producer.sinks = system.producer.sinks)
    (hfirst : later.log.firstOffset = (exchanges topic).first)
    (hstart : (exchanges topic).first ≤ offset)
    (hend : offset + length ≤ (exchanges topic).history.length)
    (hframe : Frame.encode (.publish offset (Utf8.encode topic)
      (((exchanges topic).history.drop offset).take length)) = .ok frame) (action : Action) :
    Advances exchanges action { system with producer, sent := system.sent ++ [frame] } := by
  have hshows := hreflects.shows topic hshort
  have hstep : (exchanges topic).Step topic action _ :=
    .published offset length hplace hstart hend
  refine hreflects.turn_step { system with producer, sent := system.sent ++ [frame] } hshort hstep
    hturns hfirst rfl (fun other place hplaced => Or.inl (hsinks ▸ hplaced)) (fun place hmem => hmem)
    rfl (Or.inr hlinked) (hreflects.flight.send hshort hframe) ?_ (fun other hne => ?_)
  · rw [← List.append_assoc, Packet.about_insert_self rfl, ← hshows.flight]
    rfl
  · rw [← List.append_assoc, Packet.about_insert_of_ne rfl hne, List.append_nil]

/-- A frame that cannot be sent costs the connection. -/
theorem Reflects.sends_error (hreflects : system.Reflects publishes replies exchanges)
    (hshort : topic.utf8ByteSize ≤ maxNameLength) {place : Standing} {count : Option Nat}
    {later : StoredLog} {producer : Producer}
    (hplace : (exchanges topic).standing = some place)
    (hturns : system.producer.Turns topic later (exchanges topic).history
      (some { place with outstanding := count }) producer)
    (hsinks : producer.sinks = system.producer.sinks)
    (hfirst : later.log.firstOffset = (exchanges topic).first) (action : Action) :
    Advances exchanges action (System.lose { system with producer }) := by
  have hfaithful := hreflects.faithful topic hshort
  have hmiddle := hreflects.turn { system with producer }
    { exchanges topic with standing := some { place with outstanding := count } } hshort hturns
    hfirst rfl rfl (fun other place hplaced => Or.inl (hsinks ▸ hplaced)) (fun place hmem => hmem)
    rfl hreflects.sound.linked hreflects.flight (hreflects.shows topic hshort).flight
    (fun _ _ => rfl) ⟨hfaithful.received, hfaithful.pieces⟩
  have hlost : (exchanges topic).Step topic action { exchanges topic with
      standing := (exchanges topic).standing.map Standing.rest, flight := [] } := .lost
  rw [hplace] at hlost
  exact hmiddle.advances_lose_update hlost

/-- What is published joins what is under way. -/
theorem Reflects.publish (hreflects : system.Reflects publishes replies exchanges)
    (topic : String) (moment : Moment) (action : Action) :
    (system.publish topic moment).Advances exchanges action := by
  rcases hreflects.sound.linked with ⟨hlink, -, -⟩ | hlinked
  · simp only [System.publish, hlink]
    exact hreflects.advances_self action
  · rw [publish_of_linked hlinked.1]
    by_cases hshort : topic.utf8ByteSize ≤ maxNameLength
    · obtain ⟨⟨stored, hstored, hfirst⟩, -, -, -⟩ := hreflects.shows topic hshort
      have hspec := hstored.publish_spec hreflects.sound.producer moment
      have hsinks := system.producer.sinks_publish topic moment
      generalize hplace : (exchanges topic).standing = standing at hspec
      rcases hpublish : system.producer.publish topic moment with ⟨outcome, producer⟩
      rw [hpublish] at hspec hsinks
      cases hspec with
      | nothing hturns hsame =>
        rw [← hplace] at hturns
        exact hreflects.advances_alone hshort hturns hsinks (hsame.trans hfirst) .aside
      | piece hturns hsame hstart hend hframe =>
      next offset length later =>
        cases hencode : Frame.encode (.publish offset (Utf8.encode topic)
            (((exchanges topic).history.drop offset).take length)) with
        | error fault =>
          obtain rfl : outcome = .error fault := hframe.trans (by rw [hencode]; rfl)
          exact hreflects.sends_error hshort hplace hturns hsinks (hsame.trans hfirst) action
        | ok frame =>
          obtain rfl : outcome = .ok (some frame) := hframe.trans (by rw [hencode]; rfl)
          exact hreflects.sends hlinked hshort hplace hturns hsinks (hsame.trans hfirst)
            (hfirst ▸ hstart) hend hencode action
    · cases hpublication : system.producer.client.publication? topic with
      | some publication =>
        exact absurd (hreflects.sound.short topic publication hpublication) hshort
      | none =>
        rw [Producer.publish_of_none hpublication]
        exact hreflects.advances_self action

/-- The answer to a publish takes its place. -/
theorem Reflects.answers {packet reply : Packet} {back : List Packet} {frame : Bytes}
    {sent : List Bytes} (hreflects : system.Reflects (packet :: back) replies exchanges)
    (hsent : system.sent = frame :: sent) (hreply : reply.Replies topic)
    (hpacket : packet.topic = Utf8.encode topic) {kept : StoredLog} {received bytes : Bytes}
    {peer : ServicePeer}
    (hupdates : system.peer.service.store.Updates topic kept peer.service.store)
    (hkeeps : kept.Keeps received) (hnone : kept.log.segments = [] → received = [])
    (hfloor : kept.log.firstOffset = (exchanges topic).floor)
    (hhandlers : peer.service.handlers = system.peer.service.handlers)
    (hlinked : system.link = some {} ∧ peer.connection = {}) (hframe : Frame.encode reply = .ok bytes)
    {action : Action} (hstep : (exchanges topic).Step topic action { exchanges topic with
      received, flight := Packet.about topic replies ++ reply :: Packet.about topic back }) :
    Advances exchanges action
      { system with peer, sent, replies := system.replies ++ [bytes] } := by
  have hflight : Flight sent (system.replies ++ [bytes]) back (replies ++ [reply]) := by
    have hbefore := hreflects.flight
    rw [hsent] at hbefore
    exact hbefore.answer hreply hframe
  refine hreflects.turn_service { system with peer, sent, replies := system.replies ++ [bytes] }
    received _ hreply.short hupdates hkeeps hnone hfloor hhandlers rfl (Or.inr hlinked) hflight ?_
    (fun other hne => ?_) hstep
  · rw [List.append_assoc, List.singleton_append, Packet.about_insert_self hreply.named]
  · rw [List.append_assoc, List.singleton_append, Packet.about_insert_of_ne hreply.named hne,
      Packet.about_insert_of_ne hpacket hne]

/-- The service answers a publish. -/
theorem Reflects.serve (hreflects : system.Reflects publishes replies exchanges) {time : Nat}
    (hnow : (Instant.ofNanos time).InCalendar) (action : Action) :
    (system.serve time).Advances exchanges action := by
  have hflight := hreflects.flight
  unfold System.serve
  cases hsent : system.sent with
  | nil => exact hreflects.advances_self action
  | cons frame rest =>
    rw [hsent] at hflight
    obtain ⟨topic, offset, data, back, rfl, hshort, hframe⟩ := hflight.exists_publish
    obtain ⟨hlink, hidle⟩ : system.link = some {} ∧ system.peer.connection = {} := by
      rcases hreflects.sound.linked with ⟨-, hnone, -⟩ | hlinked
      · rw [hnone] at hsent
        cases hsent
      · exact hlinked
    obtain ⟨rollSize, hhandlers⟩ := hreflects.sound.handlers
    obtain ⟨⟨stored, hstored, -⟩, ⟨old, hcurrent, hkeeps, hnone, hfloor⟩, habout, -⟩ :=
      hreflects.shows topic hshort
    obtain ⟨hlength, parts, hlaid, -⟩ := id hstored.keeps
    have hbounded := hlaid.bounded
    have hpacket : Packet.topic (.publish offset (Utf8.encode topic) data) = Utf8.encode topic := rfl
    rw [Packet.about_insert_self hpacket] at habout
    have hfaithful := hreflects.faithful topic hshort
    have hend := (hfaithful.pieces offset (Utf8.encode topic) data (by simp [habout])).1
    have hreceived := hfaithful.received.length_le
    obtain ⟨outcome, store, kept, received, hpublish, hupdates, hafter, hempty, hsame, hcases⟩ :=
      hreflects.sound.service.publish_spec hcurrent hshort hkeeps hnone rollSize hnow
        (show offset + data.length ≤ Decimal.maxValue by omega)
    have hfits : ∀ maxOffset, outcome = .reset maxOffset → maxOffset ≤ Decimal.maxValue := by
      rintro maxOffset rfl
      rcases hcases with ⟨hother, -⟩ | ⟨hreset, -⟩ | ⟨⟨fault, hother⟩, -⟩
      · cases hother
      · obtain rfl := PublishOutcome.reset.inj hreset
        omega
      · cases hother
    obtain ⟨⟨bytes, hbytes⟩, hencodable⟩ :=
      PublishOutcome.encode_reply ((Utf8.length_encode topic).trans_le hshort) hfits
    have hreply : (outcome.reply (Utf8.encode topic)).Replies topic :=
      ⟨outcome.isReply_reply _, hencodable, hshort, outcome.topic_reply _⟩
    have hanswer : Frame.encode ((system.peer.service.store.publish topic offset data rollSize
        (.ofNanos time)).1.reply (Utf8.encode topic)) = .ok bytes := by
      rw [hpublish]
      exact hbytes
    have hspec := ServicePeer.receive_spec hidle hhandlers
      (show offset ≤ Decimal.maxValue by omega) hframe time hanswer
    rcases hreceive : system.peer.receive time frame with ⟨response, peer⟩
    rw [hreceive, hpublish] at hspec
    obtain ⟨rfl, hconnection, hkept, rfl⟩ := hspec
    have hstep : (exchanges topic).Step topic action { exchanges topic with
        received
        flight := Packet.about topic replies ++
          outcome.reply (Utf8.encode topic) :: Packet.about topic back } := by
      refine .served _ _ offset _ data outcome habout (fun other hmem => ?_) received hcases
      obtain ⟨about, hother⟩ := hflight.reply other (List.mem_filter.mp hmem).1
      exact hother.isReply
    simp only [hreceive]
    exact hreflects.answers hsent hreply hpacket hupdates hafter hempty (hsame.trans hfloor)
      (hkept.trans hhandlers.symm) ⟨hlink, hconnection⟩ hbytes hstep

/-- A whole reply is taken up at once. -/
theorem deliver_of_linked (hlink : system.link = some {}) {bytes : Bytes} {rest : List Bytes}
    (hreplies : system.replies = bytes :: rest) {reply : Packet} (hencodable : reply.Encodable)
    (hframe : Frame.encode reply = .ok bytes) (moment : Moment) :
    system.deliver moment = system.takes {} rest (system.producer.handleReply reply moment) := by
  obtain ⟨rfl, hlength, -⟩ := Frame.encode_eq_ok hframe
  have hnext := FrameReader.nextBody_feed_wrap hlength
  simp only [System.deliver, hlink, hreplies, hnext, FrameReader.packetOf,
    Packet.decode_layout hencodable]

/-- Sinks know what they were told before, and what a reply claims. -/
theorem told_of_claims {before after : List Sink} {reply : Packet} {offset length : Nat}
    (htold : ∀ other place, Sink.Told after other place → Sink.Told before other place ∨
      other = topic ∧ reply.claims offset length = some place) (told : List Nat) (other : String)
    (place : Nat) (hplaced : Sink.Told after other place) :
    Sink.Told before other place ∨
      other = topic ∧ place ∈ (reply.claims offset length).toList ++ told := by
  refine (htold other place hplaced).imp_right fun ⟨hsame, hclaims⟩ => ⟨hsame, ?_⟩
  exact List.mem_append_left _ (Option.mem_toList.mpr hclaims)

/-- What a reply does to the client happens to the exchange of its topic. -/
theorem Reflects.takes {reply : Packet} {back : List Packet} {bytes : Bytes} {rest : List Bytes}
    (hreflects : system.Reflects publishes (reply :: back) exchanges)
    (hreplies : system.replies = bytes :: rest) (hreply : reply.Replies topic)
    (hconnection : system.peer.connection = {}) {stored : StoredLog}
    (hstored : system.producer.Shows topic stored (exchanges topic).history (exchanges topic).standing)
    (hfirst : stored.log.firstOffset = (exchanges topic).first)
    {result : Except Fault String × Producer}
    (hspec : system.producer.TakesUp topic stored (exchanges topic).history reply topic
      (exchanges topic).standing result) (action : Action) :
    (system.takes {} rest result).Advances exchanges action := by
  have hflight := hreflects.flight
  rw [hreplies] at hflight
  have habout := (hreflects.shows topic hreply.short).flight
  rw [List.cons_append, Packet.about_cons_self hreply.named] at habout
  have hothers : ∀ other, other ≠ topic → Packet.about other (back ++ publishes) =
      Packet.about other (reply :: back ++ publishes) := by
    intro other hne
    rw [List.cons_append, Packet.about_cons_of_ne hreply.named hne]
  have hfaithful := hreflects.faithful topic hreply.short
  generalize hplace : (exchanges topic).standing = standing at hspec
  cases hspec with
  | aside hidle =>
    have hstep : (exchanges topic).Step topic action _ := .ignored reply _ habout (hplace ▸ hidle)
    have hself := hstored.turns_self hreflects.sound.producer
    exact hreflects.turn_step { system with link := some {}, replies := rest } hreply.short hstep
      hself hfirst rfl (fun _ _ => Or.inl) (fun _ => id) rfl (Or.inr ⟨rfl, hconnection⟩)
      hflight.take rfl hothers
  | refused hturns htold =>
  next offset length fault producer =>
    have hstep : (exchanges topic).Step topic action _ :=
      .refused reply _ offset length habout hreply.isReply hplace
    let told := (reply.claims offset length).toList ++ (exchanges topic).told
    have hmiddle := hreflects.turn { system with producer } { exchanges topic with told } hreply.short
      (hplace ▸ hturns) hfirst rfl rfl (told_of_claims htold _) (fun _ => List.mem_append_right _) rfl
      hreflects.sound.linked hreflects.flight (hreflects.shows topic hreply.short).flight
      (fun _ _ => rfl) ⟨hfaithful.received, hfaithful.pieces⟩
    refine hmiddle.advances_lose_update ?_
    rw [hplace]
    exact hstep
  | settled hturns hsame htold =>
  next offset length later producer =>
    have hstep : (exchanges topic).Step topic action _ :=
      .answered reply _ offset length habout hreply.isReply hplace
    rw [hfirst] at hturns
    exact hreflects.turn_step { system with producer, link := some {}, replies := rest } hreply.short
      hstep hturns (hsame.trans hfirst) rfl (told_of_claims htold _)
      (fun _ => List.mem_append_right _) rfl (Or.inr ⟨rfl, hconnection⟩) hflight.take rfl hothers

/-- The client takes up a reply. -/
theorem Reflects.deliver (hreflects : system.Reflects publishes replies exchanges) (moment : Moment)
    (action : Action) : (system.deliver moment).Advances exchanges action := by
  have hflight := hreflects.flight
  rcases hreflects.sound.linked with ⟨hlink, -, -⟩ | ⟨hlink, hconnection⟩
  · simp only [System.deliver, hlink]
    exact hreflects.advances_self action
  · cases hreplies : system.replies with
    | nil =>
      simp only [System.deliver, hlink, hreplies]
      exact hreflects.advances_self action
    | cons bytes rest =>
      rw [hreplies] at hflight
      obtain ⟨reply, back, topic, rfl, hreply, hframe⟩ := hflight.exists_reply
      obtain ⟨stored, hstored, hfirst⟩ := (hreflects.shows topic hreply.short).producer
      have hspec := hstored.handleReply_spec hreflects.sound.producer hreply.isReply hreply.named moment
      rw [deliver_of_linked hlink hreplies hreply.encodable hframe]
      exact hreflects.takes hreplies hreply hconnection hstored hfirst hspec action

/-- A service that starts again finds what it had. -/
theorem Reflects.restart (hreflects : system.Reflects publishes replies exchanges) (rollSize : Nat)
    (action : Action) : (system.perform (.restart rollSize)).Advances exchanges action := by
  obtain ⟨hsound, hflight, hshows, hfaithful⟩ := hreflects.lose
  refine ⟨[], [], _, ⟨⟨hsound.producer, hsound.distinct, hsound.short, nofun, ⟨rollSize, rfl⟩,
    Or.inl ⟨rfl, rfl, rfl⟩⟩, hflight,
    fun topic hshort => ?_, hfaithful⟩, fun _ _ => .lost⟩
  obtain ⟨hstored, ⟨kept, hcurrent, hkeeps, hnone, hfloor⟩, habout, htold⟩ := hshows topic hshort
  obtain ⟨second, hopen, hsecond, -, hsegments, hfirst⟩ := hkeeps.ofDirectory hnone topic
  refine ⟨hstored, ⟨second, ?_, hsecond, hsegments ▸ hnone, hfirst.trans hfloor⟩, habout, htold⟩
  rw [(hsound.service.topic_of_current hcurrent).2] at hopen
  exact hopen

/-- What is no append leaves history alone. -/
theorem Advances.of_quiet {action : Action} {after : System} (hadvances : after.Advances exchanges action)
    (hquiet : ∀ topic data rollSize now, action ≠ .append topic data rollSize now) :
    ∃ publishes replies next, after.Reflects publishes replies next ∧
      ∀ topic, topic.utf8ByteSize ≤ maxNameLength → (exchanges topic).Step topic action (next topic) ∧
        (Topic.IsValid topic →
          (next topic).history = (exchanges topic).history ++ action.adds topic) := by
  obtain ⟨publishes, replies, next, hreflects, hsteps⟩ := hadvances
  refine ⟨publishes, replies, next, hreflects, fun topic hshort => ⟨hsteps topic hshort, fun _ => ?_⟩⟩
  have hnothing : action.adds topic = [] := by
    cases action with
    | append other data rollSize now => exact absurd rfl (hquiet other data rollSize now)
    | _ => rfl
  rw [hnothing, List.append_nil]
  exact (hsteps topic hshort).history_eq (hquiet topic)

/-- Every action is a step of each exchange. -/
theorem Reflects.perform (hreflects : system.Reflects publishes replies exchanges) (action : Action)
    (hfits : system.Fits action) :
    ∃ publishes replies next, (system.perform action).Reflects publishes replies next ∧
      ∀ topic, topic.utf8ByteSize ≤ maxNameLength → (exchanges topic).Step topic action (next topic) ∧
        (Topic.IsValid topic →
          (next topic).history = (exchanges topic).history ++ action.adds topic) := by
  cases action with
  | append topic data rollSize now =>
    obtain ⟨hshort, hnow, hlength⟩ := hfits
    obtain ⟨exchange, hstep, hhistory, hafter⟩ := hreflects.append hshort data rollSize hnow hlength
    refine ⟨publishes, replies, _, hafter, fun other _ => ?_⟩
    by_cases hname : other = topic
    · subst hname
      rw [Function.update_self, Action.adds, if_pos rfl]
      exact ⟨hstep, hhistory⟩
    · rw [Function.update_of_ne hname, Action.adds, if_neg (Ne.symm hname), List.append_nil]
      exact ⟨.aside, fun _ => rfl⟩
  | cleanup topic retain now =>
    refine (hreflects.clean hfits (Or.inl ⟨retain, now, rfl⟩) fun stored history hkeeps => ?_).of_quiet
      (by simp)
    obtain ⟨hafter, hcleaned, hid⟩ := hkeeps.cleanup retain now
    exact ⟨hafter, ⟨_, le_rfl, hcleaned⟩, hid⟩
  | cleanupAll topic retain external now =>
    refine (hreflects.clean hfits (Or.inr ⟨retain, external, now, rfl⟩)
      fun stored history hkeeps => ?_).of_quiet (by simp)
    obtain ⟨hafter, hcleaned, hid⟩ := hkeeps.cleanupAll retain external now
    exact ⟨hafter, ⟨_, min_le_left _ _, hcleaned⟩, hid⟩
  | register topic offset => exact (hreflects.register hfits offset).of_quiet (by simp)
  | enlist topic name offset => exact (hreflects.enlist hfits name offset).of_quiet (by simp)
  | remove handle => exact (hreflects.remove handle).of_quiet (by simp)
  | wake topic =>
    exact ((hreflects.setClient (Client.publications_wake _ topic).1).advances_self _).of_quiet (by simp)
  | fire time =>
    exact ((hreflects.setClient
      (Client.publications_fireThose _ _).1).advances_self _).of_quiet (by simp)
  | publish topic moment => exact (hreflects.publish topic moment _).of_quiet (by simp)
  | publishNext moment =>
    simp only [System.perform]
    cases htake : system.producer.client.take with
    | none => exact (hreflects.advances_self (.publishNext moment)).of_quiet (by simp)
    | some taken =>
      exact ((hreflects.setClient (Client.publications_take htake).1).publish taken.1 moment
        (.publishNext moment)).of_quiet (by simp)
  | serve time => exact (hreflects.serve hfits _).of_quiet (by simp)
  | deliver moment => exact (hreflects.deliver moment _).of_quiet (by simp)
  | disconnect => exact (hreflects.advances_lose _).of_quiet (by simp)
  | connect => exact (hreflects.connect.advances_self _).of_quiet (by simp)
  | restart rollSize => exact (hreflects.restart rollSize _).of_quiet (by simp)

end ReplicatedLog.System
