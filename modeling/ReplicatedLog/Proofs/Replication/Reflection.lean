import ReplicatedLog.Proofs.Replication.Exchange
import ReplicatedLog.Proofs.Replication.Flight

namespace ReplicatedLog

namespace System

/-- Between two frames neither end of a connection waits for the rest of one. Without a connection
    nothing is under way. -/
def Linked (system : System) : Prop :=
  system.link = none ∧ system.sent = [] ∧ system.replies = [] ∨
    system.link = some {} ∧ system.peer.connection = {}

/-- What holds of a system whatever its topics are. -/
structure Sound (system : System) : Prop where
  producer : system.producer.store.Coherent
  distinct : system.producer.client.Distinct
  short : ∀ topic publication, system.producer.client.publication? topic = some publication →
    topic.utf8ByteSize ≤ maxNameLength
  service : system.peer.service.store.Coherent
  handlers : ∃ rollSize, system.peer.service.handlers = [.store rollSize]
  linked : system.Linked

/-- What a system has of one topic. -/
structure Shows (system : System) (publishes replies : List Packet) (topic : String)
    (exchange : Exchange) : Prop where
  producer : ∃ stored, system.producer.Shows topic stored exchange.history exchange.standing ∧
    stored.log.firstOffset = exchange.first
  service : ∃ kept, system.peer.service.store.current topic = .ok kept ∧
    kept.Keeps exchange.received ∧ (kept.log.segments = [] → exchange.received = []) ∧
    kept.log.firstOffset = exchange.floor
  flight : exchange.flight = Packet.about topic (replies ++ publishes)
  told : ∀ offset, Sink.Told system.producer.sinks topic offset → offset ∈ exchange.told

/-- A system is made up of faithful exchanges. -/
structure Reflects (system : System) (publishes replies : List Packet)
    (exchanges : String → Exchange) : Prop where
  sound : system.Sound
  flight : Flight system.sent system.replies publishes replies
  shows : ∀ topic, topic.utf8ByteSize ≤ maxNameLength →
    system.Shows publishes replies topic (exchanges topic)
  faithful : ∀ topic, topic.utf8ByteSize ≤ maxNameLength → (exchanges topic).Faithful

variable {system after : System} {publishes replies morePublishes moreReplies : List Packet}
  {exchanges : String → Exchange} {exchange : Exchange} {topic : String} {later : StoredLog}
  {producer : Producer}

/-- The client turned to one topic. -/
theorem Reflects.turn (hreflects : system.Reflects publishes replies exchanges) (after : System)
    (exchange : Exchange) (hshort : topic.utf8ByteSize ≤ maxNameLength)
    (hturns : system.producer.Turns topic later exchange.history exchange.standing after.producer)
    (hfirst : later.log.firstOffset = exchange.first)
    (hreceived : exchange.received = (exchanges topic).received)
    (hfloor : exchange.floor = (exchanges topic).floor)
    (htold : ∀ other place, Sink.Told after.producer.sinks other place →
      Sink.Told system.producer.sinks other place ∨ other = topic ∧ place ∈ exchange.told)
    (hmore : ∀ place ∈ (exchanges topic).told, place ∈ exchange.told)
    (hpeer : after.peer = system.peer) (hlinked : after.Linked)
    (hflight : Flight after.sent after.replies morePublishes moreReplies)
    (habout : exchange.flight = Packet.about topic (moreReplies ++ morePublishes))
    (hothers : ∀ other, other ≠ topic → Packet.about other (moreReplies ++ morePublishes) =
      Packet.about other (replies ++ publishes))
    (hfaithful : exchange.Faithful) :
    after.Reflects morePublishes moreReplies (Function.update exchanges topic exchange) := by
  obtain ⟨hsound, -, hshows, hall⟩ := hreflects
  refine ⟨⟨hturns.updates.coherent, hturns.touches.distinct hsound.distinct, ?_, hpeer ▸ hsound.service,
    hpeer ▸ hsound.handlers, hlinked⟩, hflight, fun other hother => ?_, fun other hother => ?_⟩
  · intro other publication hfound
    by_cases hname : other = topic
    · exact hname ▸ hshort
    · rw [hturns.touches.others other hname] at hfound
      exact hsound.short other publication hfound
  · by_cases hname : other = topic
    · subst hname
      obtain ⟨-, hservice, -, hknown⟩ := hshows other hother
      rw [Function.update_self]
      refine ⟨⟨later, hturns.shows, hfirst⟩, ?_, habout, fun offset hplaced => ?_⟩
      · rw [hpeer, hreceived, hfloor]
        exact hservice
      · rcases htold other offset hplaced with hold | ⟨-, hnew⟩
        · exact hmore offset (hknown offset hold)
        · exact hnew
    · obtain ⟨⟨stored, hstored, hfirst⟩, hservice, habout, hknown⟩ := hshows other hother
      obtain ⟨same, hsame, hkept⟩ := hturns.shows_of_ne hname hother hstored
      rw [Function.update_of_ne hname]
      refine ⟨⟨same, hkept, hsame.log ▸ hfirst⟩, hpeer ▸ hservice,
        habout.trans (hothers other hname).symm, fun offset hplaced => ?_⟩
      rcases htold other offset hplaced with hold | ⟨hsame, -⟩
      · exact hknown offset hold
      · exact absurd hsame hname
  · by_cases hname : other = topic
    · subst hname
      rw [Function.update_self]
      exact hfaithful
    · rw [Function.update_of_ne hname]
      exact hall other hother

/-- After an action a system is made up of exchanges that each took a step. -/
def Advances (exchanges : String → Exchange) (action : Action) (after : System) : Prop :=
  ∃ publishes replies next, after.Reflects publishes replies next ∧
    ∀ topic, topic.utf8ByteSize ≤ maxNameLength → (exchanges topic).Step topic action (next topic)

theorem Reflects.advances {action : Action}
    (hreflects : after.Reflects publishes replies (Function.update exchanges topic exchange))
    (hstep : (exchanges topic).Step topic action exchange) : after.Advances exchanges action := by
  refine ⟨publishes, replies, _, hreflects, fun other _ => ?_⟩
  by_cases hname : other = topic
  · rw [hname, Function.update_self]
    exact hstep
  · rw [Function.update_of_ne hname]
    exact .aside

/-- A step of the exchange of one topic, as the client turned to it. -/
theorem Reflects.turn_step (hreflects : system.Reflects publishes replies exchanges) (after : System)
    (hshort : topic.utf8ByteSize ≤ maxNameLength) {action : Action}
    (hstep : (exchanges topic).Step topic action exchange)
    (hturns : system.producer.Turns topic later exchange.history exchange.standing after.producer)
    (hfirst : later.log.firstOffset = exchange.first)
    (hreceived : exchange.received = (exchanges topic).received)
    (htold : ∀ other place, Sink.Told after.producer.sinks other place →
      Sink.Told system.producer.sinks other place ∨ other = topic ∧ place ∈ exchange.told)
    (hmore : ∀ place ∈ (exchanges topic).told, place ∈ exchange.told)
    (hpeer : after.peer = system.peer) (hlinked : after.Linked)
    (hflight : Flight after.sent after.replies morePublishes moreReplies)
    (habout : exchange.flight = Packet.about topic (moreReplies ++ morePublishes))
    (hothers : ∀ other, other ≠ topic → Packet.about other (moreReplies ++ morePublishes) =
      Packet.about other (replies ++ publishes)) :
    after.Advances exchanges action := by
  have hfaithful := (hreflects.faithful topic hshort).step hstep
  exact (hreflects.turn after exchange hshort hturns hfirst hreceived hstep.floor_eq htold hmore hpeer
    hlinked hflight habout hothers hfaithful).advances hstep

/-- Only what a system logs, publishes and has under way matters. -/
theorem Reflects.congr (hreflects : system.Reflects publishes replies exchanges)
    (hstore : after.producer.store = system.producer.store)
    (hpublications : after.producer.client.publications = system.producer.client.publications)
    (hsinks : after.producer.sinks = system.producer.sinks)
    (hservice : after.peer.service.store = system.peer.service.store)
    (hhandlers : after.peer.service.handlers = system.peer.service.handlers)
    (hsent : after.sent = system.sent) (hreplies : after.replies = system.replies)
    (hlinked : after.Linked) : after.Reflects publishes replies exchanges := by
  obtain ⟨hsound, hflight, hshows, hfaithful⟩ := hreflects
  have hpublication := Client.publication?_congr hpublications
  refine ⟨⟨hstore ▸ hsound.producer, ?_, fun topic publication hfound => ?_, hservice ▸ hsound.service,
    hhandlers ▸ hsound.handlers, hlinked⟩, hsent ▸ hreplies ▸ hflight, fun topic hshort => ?_,
    hfaithful⟩
  · intro publication hmem
    rw [hpublication]
    exact hsound.distinct publication (hpublications ▸ hmem)
  · exact hsound.short topic publication (hpublication topic ▸ hfound)
  · obtain ⟨⟨stored, hstored, hfirst⟩, hkept, habout, htold⟩ := hshows topic hshort
    exact ⟨⟨stored, hstored.congr hstore hpublications, hfirst⟩, hservice ▸ hkept, habout,
      fun offset hplaced => htold offset (hsinks ▸ hplaced)⟩

/-- The client turned to a topic and sent nothing. -/
theorem Reflects.turn_alone (hreflects : system.Reflects publishes replies exchanges)
    (hshort : topic.utf8ByteSize ≤ maxNameLength) {history : Bytes} {standing : Option Standing}
    (hturns : system.producer.Turns topic later history standing producer)
    (hsinks : producer.sinks = system.producer.sinks) {first : Nat}
    (hfirst : later.log.firstOffset = first) {action : Action}
    (hstep : (exchanges topic).Step topic action
      { exchanges topic with history, first, standing }) :
    Reflects { system with producer } publishes replies
      (Function.update exchanges topic { exchanges topic with history, first, standing }) := by
  have hfaithful := (hreflects.faithful topic hshort).step hstep
  refine hreflects.turn { system with producer }
    { exchanges topic with history, first, standing } hshort hturns hfirst rfl rfl
    (fun other place hplaced => ?_) (fun place hmem => hmem) rfl hreflects.sound.linked
    hreflects.flight (hreflects.shows topic hshort).flight (fun _ _ => rfl) hfaithful
  exact Or.inl (hsinks ▸ hplaced)

theorem Reflects.advances_alone (hreflects : system.Reflects publishes replies exchanges)
    (hshort : topic.utf8ByteSize ≤ maxNameLength) {history : Bytes} {standing : Option Standing}
    (hturns : system.producer.Turns topic later history standing producer)
    (hsinks : producer.sinks = system.producer.sinks) {first : Nat}
    (hfirst : later.log.firstOffset = first) {action : Action}
    (hstep : (exchanges topic).Step topic action
      { exchanges topic with history, first, standing }) :
    Advances exchanges action { system with producer } :=
  (hreflects.turn_alone hshort hturns hsinks hfirst hstep).advances hstep

/-- A loss of the connection is one for every topic. -/
theorem Reflects.lose (hreflects : system.Reflects publishes replies exchanges) :
    system.lose.Reflects [] [] fun topic => { exchanges topic with
      standing := (exchanges topic).standing.map Standing.rest, flight := [] } := by
  obtain ⟨hsound, hflight, hshows, hfaithful⟩ := hreflects
  refine ⟨⟨hsound.producer, hsound.distinct.disconnected, fun topic publication hfound => ?_,
    hsound.service, hsound.handlers, Or.inl ⟨rfl, rfl, rfl⟩⟩, .nil,
    fun topic hshort => ?_, fun topic hshort => ⟨(hfaithful topic hshort).received, nofun⟩⟩
  · have hbefore : system.producer.client.disconnected.publication? topic = some publication := hfound
    rw [Client.publication?_disconnected] at hbefore
    obtain ⟨old, hold, -⟩ := Option.map_eq_some_iff.mp hbefore
    exact hsound.short topic old hold
  · obtain ⟨⟨stored, hstored, hfirst⟩, hservice, -, htold⟩ := hshows topic hshort
    exact ⟨⟨stored, hstored.disconnected, hfirst⟩, hservice, rfl, htold⟩

theorem Reflects.advances_lose (hreflects : system.Reflects publishes replies exchanges)
    (action : Action) : system.lose.Advances exchanges action :=
  ⟨[], [], _, hreflects.lose, fun _ _ => .lost⟩

/-- The connection is lost after something else happened to a topic. -/
theorem Reflects.advances_lose_update {action : Action}
    (hreflects : system.Reflects publishes replies (Function.update exchanges topic exchange))
    (hstep : (exchanges topic).Step topic action
      { exchange with standing := exchange.standing.map Standing.rest, flight := [] }) :
    system.lose.Advances exchanges action := by
  refine ⟨[], [], _, hreflects.lose, fun other _ => ?_⟩
  by_cases hname : other = topic
  · rw [hname, Function.update_self]
    exact hstep
  · rw [Function.update_of_ne hname]
    exact .lost

theorem Reflects.advances_self (hreflects : system.Reflects publishes replies exchanges)
    (action : Action) : system.Advances exchanges action :=
  ⟨publishes, replies, exchanges, hreflects, fun _ _ => .aside⟩

/-- The service turned to one topic, and the client heard nothing of it yet. -/
theorem Reflects.turn_service (hreflects : system.Reflects publishes replies exchanges)
    (after : System) (received : Bytes) (flight : List Packet)
    (hshort : topic.utf8ByteSize ≤ maxNameLength) {kept : StoredLog}
    (hupdates : system.peer.service.store.Updates topic kept after.peer.service.store)
    (hkeeps : kept.Keeps received) (hnone : kept.log.segments = [] → received = [])
    (hfloor : kept.log.firstOffset = (exchanges topic).floor)
    (hhandlers : after.peer.service.handlers = system.peer.service.handlers)
    (hproducer : after.producer = system.producer) (hlinked : after.Linked)
    (hflight : Flight after.sent after.replies morePublishes moreReplies)
    (habout : flight = Packet.about topic (moreReplies ++ morePublishes))
    (hothers : ∀ other, other ≠ topic → Packet.about other (moreReplies ++ morePublishes) =
      Packet.about other (replies ++ publishes))
    {action : Action}
    (hstep : (exchanges topic).Step topic action { exchanges topic with received, flight }) :
    after.Advances exchanges action := by
  obtain ⟨hsound, -, hshows, hall⟩ := hreflects
  refine Reflects.advances ⟨⟨hproducer ▸ hsound.producer, hproducer ▸ hsound.distinct,
    hproducer ▸ hsound.short, hupdates.coherent, hhandlers ▸ hsound.handlers, hlinked⟩, hflight,
    fun other hother => ?_, fun other hother => ?_⟩ hstep
  · by_cases hname : other = topic
    · subst hname
      rw [Function.update_self]
      obtain ⟨hstored, -, -, htold⟩ := hshows other hother
      exact ⟨hproducer ▸ hstored, ⟨kept, hupdates.current, hkeeps, hnone, hfloor⟩, habout,
        hproducer ▸ htold⟩
    · rw [Function.update_of_ne hname]
      obtain ⟨hstored, ⟨old, hcurrent, hold, hempty, hstart⟩, hbefore, htold⟩ := hshows other hother
      obtain ⟨same, hsame, hlog⟩ := hupdates.others other old hname hother hcurrent
      exact ⟨hproducer ▸ hstored,
        ⟨same, hsame, hlog.keeps hold, hlog.log ▸ hempty, hlog.log ▸ hstart⟩,
        hbefore.trans (hothers other hname).symm, hproducer ▸ htold⟩
  · by_cases hname : other = topic
    · subst hname
      rw [Function.update_self]
      exact (hall other hother).step hstep
    · rw [Function.update_of_ne hname]
      exact hall other hother

/-- The queue and the timers of a client only say when something is tried. -/
theorem Reflects.setClient (hreflects : system.Reflects publishes replies exchanges)
    {client : Client} (hpublications : client.publications = system.producer.client.publications) :
    (system.setClient client).Reflects publishes replies exchanges :=
  hreflects.congr rfl hpublications rfl rfl rfl rfl rfl hreflects.sound.linked

end System

end ReplicatedLog
