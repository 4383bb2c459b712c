import Mathlib.Algebra.BigOperators.Group.Finset.Piecewise
import ReplicatedLog.Proofs.Replication.Serving
import ReplicatedLog.Proofs.Store.Opening

namespace ReplicatedLog

/-- Where the log of a topic ends. -/
def Store.endOf (store : Store) (topic : String) : Nat :=
  match store.current topic with
  | .ok stored => stored.log.maxOffset
  | .error _ => 0

/-- The answer to a publish: bytes are wanted only for a topic that can be, and only where its log
    ends. -/
def Store.answer (store : Store) (topic : Bytes) (offset : Nat) : Packet :=
  match Utf8.decode? topic with
  | none => .failure topic
  | some name =>
    if Topic.IsValid name then
      if offset = store.endOf name then .ack topic else .reset topic (store.endOf name)
    else .failure topic

/-- A publish that a service took up, its replies to it, and its store before and after. -/
structure Served where
  topic : Bytes
  offset : Nat
  data : Bytes
  replies : List Packet
  before : Store
  after : Store

/-- The bytes that were acknowledged for a topic, in the order in which they were taken up. -/
def Served.acknowledged (topic : String) (served : List Served) : Bytes :=
  (served.filter fun one => one.replies = [.ack (Utf8.encode topic)]).flatMap (·.data)

/-- A service with the connections that it took up. -/
structure Reception where
  service : Service
  connections : List Connection := []

namespace Reception

/-- A service with no connection yet, on what a volume holds. -/
def start (volume : Volume) (rollSize : Nat) : Reception :=
  { service := .ofStore { volume } rollSize }

/-- Takes up one more connection. -/
def accept (reception : Reception) : Reception :=
  let (connection, service) := reception.service.accept
  { service, connections := reception.connections ++ [connection] }

/-- Takes up bytes that arrive on a connection, and gives the replies. -/
def receive (reception : Reception) (index : Nat) (bytes : Bytes) (now : Instant) :
    List Packet × Reception :=
  match reception.connections[index]? with
  | none => ([], reception)
  | some connection =>
    let (replies, connection, service) := reception.service.receive connection bytes now
    (replies, { service, connections := reception.connections.set index connection })

/-- The name of a topic fits into that of a directory, and what is added to its log into 64 bits. -/
def Fits (reception : Reception) (topic : Bytes) (offset : Nat) (data : Bytes) : Prop :=
  ∀ name, Utf8.decode? topic = some name → Topic.IsValid name →
    name.utf8ByteSize ≤ maxNameLength ∧
      (offset = reception.service.store.endOf name → offset + data.length ≤ Decimal.maxValue)

/-- Connections are taken up and publishes arrive on them, in any order. Each publish is noted with
    what came of it. -/
inductive Run (start : Reception) : List Served → Reception → Prop
  | refl : Run start [] start
  | accept {served : List Served} {reception : Reception} (hbefore : Run start served reception) :
      Run start served reception.accept
  | publish {served : List Served} {reception : Reception} (hbefore : Run start served reception)
      (index : Nat) (hindex : index < reception.connections.length) (body : Bytes)
      (hlength : body.length ≤ Frame.maxLength) (offset : Nat) (topic data : Bytes)
      (hbody : Packet.decode body = .ok (.publish offset topic data)) (now : Instant)
      (hnow : now.InCalendar) (hfits : reception.Fits topic offset data) :
      Run start
        (served ++ [{
          topic
          offset
          data
          replies := (reception.receive index (Frame.wrap body) now).1
          before := reception.service.store
          after := (reception.receive index (Frame.wrap body) now).2.service.store }])
        (reception.receive index (Frame.wrap body) now).2

end Reception

namespace Service

variable {service : Service} {rollSize : Nat} {first : String → Nat} {received : String → Bytes}

/-- A service that only stores, on a store that has of each topic what was received from its first
    offset on. -/
structure Keeps (service : Service) (rollSize : Nat) (first : String → Nat)
    (received : String → Bytes) : Prop where
  handlers : service.handlers = [.store rollSize]
  coherent : service.store.Coherent
  named : service.store.Named
  keeps : ∀ topic, topic.utf8ByteSize ≤ maxNameLength →
    ∃ stored, service.store.current topic = .ok stored ∧ stored.Keeps (received topic) ∧
      (stored.log.segments = [] → received topic = []) ∧ stored.log.firstOffset = first topic

theorem Keeps.endOf_eq (hkeeps : service.Keeps rollSize first received) {topic : String}
    (hshort : topic.utf8ByteSize ≤ maxNameLength) :
    service.store.endOf topic = (received topic).length := by
  obtain ⟨stored, hcurrent, hstored, -⟩ := hkeeps.keeps topic hshort
  simp only [Store.endOf, hcurrent, hstored.1]

/-- What was received of the topic of an acknowledged publish goes on with it. -/
def receivedWith (received : String → Bytes) (reply : Packet) (data : Bytes) (topic : String) :
    Bytes :=
  received topic ++ if reply = .ack (Utf8.encode topic) then data else []

theorem receivedWith_of_ne {reply : Packet} {topic : String} (hne : reply ≠ .ack (Utf8.encode topic))
    (data : Bytes) : receivedWith received reply data topic = received topic := by
  rw [receivedWith, if_neg hne, List.append_nil]

theorem receivedWith_ack (topic : String) (data : Bytes) :
    receivedWith received (.ack (Utf8.encode topic)) data topic = received topic ++ data := by
  rw [receivedWith, if_pos rfl]

/-- A reply that acknowledges nothing leaves what was received as it is. -/
theorem Keeps.of_quiet (hkeeps : service.Keeps rollSize first received) {after : Service}
    (hhandlers : after.handlers = service.handlers) (hstore : after.store = service.store)
    {reply : Packet} (hreply : ∀ topic, reply ≠ .ack topic) (data : Bytes) :
    after.Keeps rollSize first (receivedWith received reply data) := by
  have hsame : receivedWith received reply data = received :=
    funext fun topic => receivedWith_of_ne (hreply _) data
  rw [hsame]
  refine ⟨hhandlers.trans hkeeps.handlers, ?_, ?_, ?_⟩
  · rw [hstore]
    exact hkeeps.coherent
  · rw [hstore]
    exact hkeeps.named
  · rw [hstore]
    exact hkeeps.keeps

/-- The reply to a publish is the answer that the store gives, and what it acknowledges is added to
    the log of its topic. -/
theorem Keeps.publish (hkeeps : service.Keeps rollSize first received) {topic : Bytes}
    {offset : Nat} {data : Bytes} {now : Instant} (hnow : now.InCalendar)
    (hfits : ∀ name, Utf8.decode? topic = some name → Topic.IsValid name →
      name.utf8ByteSize ≤ maxNameLength ∧
        (offset = service.store.endOf name → offset + data.length ≤ Decimal.maxValue)) :
    (service.publish topic offset data now).1 = service.store.answer topic offset ∧
      (service.publish topic offset data now).2.Keeps rollSize first
        (receivedWith received (service.store.answer topic offset) data) := by
  cases hdecode : Utf8.decode? topic with
  | none =>
    have hanswer : service.store.answer topic offset = .failure topic := by
      simp only [Store.answer, hdecode]
    have hpublish : (service.publish topic offset data now).1 = .failure topic ∧
        (service.publish topic offset data now).2.handlers = service.handlers ∧
        (service.publish topic offset data now).2.store = service.store := by
      simp [Service.publish, outcome, hdecode]
    rw [hanswer]
    exact ⟨hpublish.1, hkeeps.of_quiet hpublish.2.1 hpublish.2.2 (by simp) data⟩
  | some name =>
    obtain rfl := Utf8.encode_of_decode? hdecode
    obtain ⟨hreply, hstore, hhandlers⟩ := publish_eq hkeeps.handlers name offset data now
    have hkept := hhandlers.trans hkeeps.handlers.symm
    by_cases hvalid : Topic.IsValid name
    · obtain ⟨hshort, hroom⟩ := hfits name hdecode hvalid
      have hend := hkeeps.endOf_eq hshort
      rw [hend] at hroom
      obtain ⟨stored, hcurrent, hstored, hnone, hfirst⟩ := hkeeps.keeps name hshort
      obtain ⟨outcome, after, kept, grown, hpublish, hupdates, hafter, hempty, hsame, hcases⟩ :=
        hkeeps.coherent.publish_cases hcurrent hshort hstored hnone rollSize hnow hroom
      rw [hpublish] at hreply hstore
      have hnamed : (service.publish (Utf8.encode name) offset data now).2.store.Named := by
        have hwork := hkeeps.named.publish name offset data rollSize now
        rw [hpublish] at hwork
        rw [hstore]
        exact hwork
      have hanswer : outcome.reply (Utf8.encode name) =
            service.store.answer (Utf8.encode name) offset ∧
          grown =
            receivedWith received (outcome.reply (Utf8.encode name)) data name := by
        simp only [Store.answer, Utf8.decode?_encode, if_pos hvalid, hend]
        rcases hcases with ⟨rfl, hoffset, rfl⟩ | ⟨rfl, hoffset, rfl⟩ | ⟨hinvalid, -⟩
        · rw [if_pos hoffset]
          exact ⟨rfl, (receivedWith_ack name data).symm⟩
        · rw [if_neg hoffset]
          exact ⟨rfl, (receivedWith_of_ne (by simp [PublishOutcome.reply]) data).symm⟩
        · exact absurd hvalid hinvalid
      obtain ⟨hanswer, rfl⟩ := hanswer
      rw [← hanswer]
      refine ⟨hreply, hhandlers, ?_, hnamed, fun other hother => ?_⟩
      · rw [hstore]
        exact hupdates.coherent
      · rw [hstore]
        by_cases hname : other = name
        · subst hname
          exact ⟨kept, hupdates.current, hafter, hempty, hsame.trans hfirst⟩
        · obtain ⟨old, hold, holdKeeps, holdNone, holdFirst⟩ := hkeeps.keeps other hother
          obtain ⟨same, hfound, hlog⟩ := hupdates.others other old hname hother hold
          have hne : outcome.reply (Utf8.encode name) ≠ .ack (Utf8.encode other) := by
            intro hack
            have htopic := congrArg Packet.topic hack
            rw [outcome.topic_reply] at htopic
            exact hname (Utf8.encode_inj.mp htopic).symm
          rw [receivedWith_of_ne hne]
          refine ⟨same, hfound, hlog.keeps holdKeeps, ?_, ?_⟩
          · rw [hlog.log]
            exact holdNone
          · rw [hlog.log]
            exact holdFirst
    · have hanswer : service.store.answer (Utf8.encode name) offset =
          .failure (Utf8.encode name) := by
        simp only [Store.answer, Utf8.decode?_encode, if_neg hvalid]
      obtain ⟨fault, hpublish⟩ :=
        hkeeps.named.publish_of_invalid hvalid offset data rollSize now
      rw [hpublish] at hreply hstore
      rw [hanswer]
      exact ⟨hreply, hkeeps.of_quiet hkept hstore (by simp) data⟩

theorem stats_handleAll (topic : String) (offset : Nat) (data : Bytes) (now : Instant)
    (handlers : List Handler) (service : Service) :
    (handleAll topic offset data now handlers service).2.stats = service.stats := by
  induction handlers generalizing service with
  | nil => rfl
  | cons handler rest ih =>
    have hhandle : (service.handle handler topic offset data now).2.stats = service.stats := by
      cases handler <;> rfl
    rw [handleAll]
    rcases hgiven : service.handle handler topic offset data now with ⟨_ | _ | _, given⟩
    · rw [hgiven] at hhandle
      exact (ih given).trans hhandle
    · rw [hgiven] at hhandle
      exact hhandle
    · rw [hgiven] at hhandle
      exact hhandle

theorem stats_outcome (service : Service) (topic : Bytes) (offset : Nat) (data : Bytes) (now : Instant) :
    (service.outcome topic offset data now).2.stats = service.stats := by
  unfold outcome
  cases Utf8.decode? topic with
  | none => rfl
  | some name =>
    by_cases hnone : service.handlers.isEmpty
    · simp only [if_pos hnone]
    · simp only [if_neg hnone]
      exact stats_handleAll name offset data now service.handlers service

/-- Every publish is counted once, and once more by its reply. -/
theorem stats_publish {topic : Bytes} {offset : Nat} {data : Bytes} {now : Instant} {reply : Packet}
    {after : Service} (hpublish : service.publish topic offset data now = (reply, after)) :
    after.stats.publishes = service.stats.publishes + 1 ∧
      after.stats.acks + after.stats.resets + after.stats.failures =
        service.stats.acks + service.stats.resets + service.stats.failures + 1 ∧
      after.stats.bytesReceived =
        service.stats.bytesReceived + if reply = .ack topic then data.length else 0 := by
  have hstats := stats_outcome service topic offset data now
  unfold Service.publish at hpublish
  rcases houtcome : service.outcome topic offset data now with ⟨_ | maxOffset | fault, worked⟩
  · rw [houtcome] at hstats hpublish
    obtain ⟨rfl, rfl⟩ := Prod.mk.inj hpublish
    dsimp only at hstats ⊢
    rw [hstats, if_pos rfl]
    exact ⟨rfl, by omega, rfl⟩
  · rw [houtcome] at hstats hpublish
    obtain ⟨rfl, rfl⟩ := Prod.mk.inj hpublish
    dsimp only at hstats ⊢
    rw [hstats, if_neg (by simp)]
    exact ⟨rfl, by omega, rfl⟩
  · rw [houtcome] at hstats hpublish
    obtain ⟨rfl, rfl⟩ := Prod.mk.inj hpublish
    dsimp only at hstats ⊢
    rw [hstats, if_neg (by simp)]
    exact ⟨rfl, by omega, rfl⟩

end Service

namespace Served

/-- A publish got the answer of the store as its one reply, and unless that acknowledged bytes of a
    topic, the log of the topic stayed as it was. -/
structure Answered (one : Served) : Prop where
  replies : one.replies = [one.before.answer one.topic one.offset]
  unchanged : ∀ topic, topic.utf8ByteSize ≤ maxNameLength →
    one.replies ≠ [.ack (Utf8.encode topic)] →
      ∃ old new, one.before.current topic = .ok old ∧ one.after.current topic = .ok new ∧
        new.bytes = old.bytes ∧ new.log.maxOffset = old.log.maxOffset

/-- The bytes of the publishes that were acknowledged. -/
def received (served : List Served) : Nat :=
  ((served.filter fun one => one.replies = [.ack one.topic]).map (·.data.length)).sum

theorem acknowledged_append (topic : String) (served : List Served) (one : Served) :
    acknowledged topic (served ++ [one]) = acknowledged topic served ++
      if one.replies = [.ack (Utf8.encode topic)] then one.data else [] := by
  rw [acknowledged, List.filter_append, List.flatMap_append]
  congr 1
  by_cases hack : one.replies = [.ack (Utf8.encode topic)] <;> simp [hack]

theorem received_append (served : List Served) (one : Served) :
    received (served ++ [one]) = received served +
      if one.replies = [.ack one.topic] then one.data.length else 0 := by
  rw [received, List.filter_append, List.map_append, List.sum_append]
  congr 1
  by_cases hack : one.replies = [.ack one.topic] <;> simp [hack]

theorem topic_answer (store : Store) (topic : Bytes) (offset : Nat) :
    (store.answer topic offset).topic = topic := by
  unfold Store.answer
  cases Utf8.decode? topic with
  | none => rfl
  | some name =>
    by_cases hvalid : Topic.IsValid name
    · by_cases hoffset : offset = store.endOf name <;> simp [hvalid, hoffset, Packet.topic]
    · simp [hvalid, Packet.topic]

/-- Of all topics, only that of an acknowledged publish got its bytes. -/
theorem Answered.sum_eq {one : Served} (hanswered : one.Answered) {topics : Finset String}
    (htopics : one.replies = [.ack one.topic] → ∃ topic ∈ topics, Utf8.encode topic = one.topic) :
    ∑ topic ∈ topics, (if one.replies = [.ack (Utf8.encode topic)] then one.data else []).length =
      if one.replies = [.ack one.topic] then one.data.length else 0 := by
  have hsame : ∀ topic, one.replies = [.ack topic] → topic = one.topic := by
    intro topic hack
    have htopic := topic_answer one.before one.topic one.offset
    rw [hanswered.replies, List.singleton_inj] at hack
    rw [hack] at htopic
    exact htopic
  by_cases hack : one.replies = [.ack one.topic]
  · obtain ⟨name, hmem, hname⟩ := htopics hack
    rw [if_pos hack, Finset.sum_eq_single_of_mem name hmem]
    · rw [hname, if_pos hack]
    · intro other _ hne
      rw [if_neg, List.length_nil]
      intro hother
      exact hne (Utf8.encode_inj.mp ((hsame _ hother).trans hname.symm))
  · rw [if_neg hack]
    refine Finset.sum_eq_zero fun topic _ => ?_
    rw [if_neg, List.length_nil]
    intro hother
    exact hack (hsame _ hother ▸ hother)

/-- What was acknowledged of all topics is all that was acknowledged. -/
theorem sum_acknowledged {topics : Finset String} {served : List Served}
    (hanswered : ∀ one ∈ served, one.Answered)
    (htopics : ∀ one ∈ served, one.replies = [.ack one.topic] →
      ∃ topic ∈ topics, Utf8.encode topic = one.topic) :
    ∑ topic ∈ topics, (acknowledged topic served).length = received served := by
  induction served using List.reverseRecOn with
  | nil => simp [acknowledged, received]
  | append_singleton served one ih =>
    have hone := List.mem_append_right served (List.mem_singleton_self one)
    have hbefore := ih (fun other hmem => hanswered other (List.mem_append_left _ hmem))
      fun other hmem => htopics other (List.mem_append_left _ hmem)
    simp only [acknowledged_append, List.length_append, Finset.sum_add_distrib, hbefore,
      received_append, (hanswered one hone).sum_eq (htopics one hone)]

end Served

namespace Reception

variable {volume : Volume} {rollSize : Nat} {first : String → Nat} {history : String → Bytes}
  {served : List Served} {reception : Reception}

/-- A publish that arrives whole on one of the idle connections goes to the service. -/
theorem receive_eq (hidle : ∀ connection ∈ reception.connections, connection = {}) {index : Nat}
    (hindex : index < reception.connections.length) {body : Bytes}
    (hlength : body.length ≤ Frame.maxLength) {offset : Nat} {topic data : Bytes}
    (hbody : Packet.decode body = .ok (.publish offset topic data)) (now : Instant) :
    reception.receive index (Frame.wrap body) now =
      ([(reception.service.publish topic offset data now).1],
        { reception with service := (reception.service.publish topic offset data now).2 }) := by
  have hconnection : reception.connections[index]? = some {} := by
    rw [List.getElem?_eq_getElem hindex, hidle _ (List.getElem_mem hindex)]
  have hdrain := FrameReader.drain_feed_body hlength
  rw [hbody] at hdrain
  have hsame : reception.connections.set index {} = reception.connections := by
    have hself := List.set_getElem_self hindex
    rwa [hidle _ (List.getElem_mem hindex)] at hself
  simp only [receive, hconnection, Service.receive, hdrain, Service.handlePackets,
    Bool.false_eq_true, if_false, Bool.not_true, hsame]

/-- What every step of a reception preserves. -/
structure Keeps (reception : Reception) (rollSize : Nat) (first : String → Nat)
    (history : String → Bytes) (served : List Served) : Prop where
  service : reception.service.Keeps rollSize first fun topic =>
    history topic ++ Served.acknowledged topic served
  idle : ∀ connection ∈ reception.connections, connection = {}
  publishes : reception.service.stats.publishes = served.length
  replied : reception.service.stats.acks + reception.service.stats.resets +
    reception.service.stats.failures = served.length
  received : reception.service.stats.bytesReceived = Served.received served
  answered : ∀ one ∈ served, one.Answered

theorem keeps_start (hvolume : volume.Stores first history) (rollSize : Nat) :
    (start volume rollSize).Keeps rollSize first history [] := by
  refine ⟨⟨rfl, nofun, nofun, fun topic hshort => ?_⟩, nofun, rfl, rfl, rfl, nofun⟩
  obtain ⟨stored, hopen, hkeeps, hfirst, hnone, -⟩ := (hvolume topic hshort).exists_keeps
  refine ⟨stored, hopen, ?_, fun hempty => ?_, hfirst⟩
  · exact (List.append_nil (history topic)).symm ▸ hkeeps
  · exact (List.append_nil (history topic)).trans (hnone hempty)

theorem Keeps.publish_step (hkeeps : reception.Keeps rollSize first history served) {index : Nat}
    (hindex : index < reception.connections.length) {body : Bytes}
    (hlength : body.length ≤ Frame.maxLength) {offset : Nat} {topic data : Bytes}
    (hbody : Packet.decode body = .ok (.publish offset topic data)) {now : Instant}
    (hnow : now.InCalendar) (hfits : reception.Fits topic offset data) :
    (reception.receive index (Frame.wrap body) now).2.Keeps rollSize first history
      (served ++ [{
        topic
        offset
        data
        replies := (reception.receive index (Frame.wrap body) now).1
        before := reception.service.store
        after := (reception.receive index (Frame.wrap body) now).2.service.store }]) := by
  obtain ⟨hreply, hservice⟩ := hkeeps.service.publish hnow hfits
  rw [receive_eq hkeeps.idle hindex hlength hbody]
  rcases hpublish : reception.service.publish topic offset data now with ⟨reply, after⟩
  rw [hpublish] at hreply hservice
  rw [← hreply] at hservice
  obtain ⟨hpublishes, hreplied, hreceived⟩ := Service.stats_publish hpublish
  have hgrown : ∀ name, history name ++ Served.acknowledged name (served ++ [⟨topic, offset, data,
      [reply], reception.service.store, after.store⟩]) =
      Service.receivedWith (fun topic => history topic ++ Served.acknowledged topic served) reply data
        name := by
    intro name
    simp only [Served.acknowledged_append, Service.receivedWith, List.append_assoc,
      List.singleton_inj]
  refine ⟨?_, hkeeps.idle, ?_, ?_, ?_, fun one hmem => ?_⟩
  · rw [funext hgrown]
    exact hservice
  · rw [hpublishes, hkeeps.publishes, List.length_append, List.length_singleton]
  · rw [hreplied, hkeeps.replied, List.length_append, List.length_singleton]
  · simp only [hreceived, hkeeps.received, Served.received_append, List.singleton_inj]
  · rcases List.mem_append.mp hmem with hold | hnew
    · exact hkeeps.answered one hold
    · obtain rfl := List.mem_singleton.mp hnew
      refine ⟨congrArg (fun reply => [reply]) hreply, fun name hshort hquiet => ?_⟩
      obtain ⟨old, hold, holdKeeps, -, holdFirst⟩ := hkeeps.service.keeps name hshort
      obtain ⟨new, hnew, hnewKeeps, -, hnewFirst⟩ := hservice.keeps name hshort
      have hne : reply ≠ .ack (Utf8.encode name) := fun hack => hquiet (congrArg (fun reply => [reply]) hack)
      rw [Service.receivedWith_of_ne hne] at hnewKeeps
      refine ⟨old, new, hold, hnew, ?_, hnewKeeps.1.symm.trans holdKeeps.1⟩
      rw [hnewKeeps.bytes_eq, holdKeeps.bytes_eq, hnewFirst, holdFirst]

theorem Run.keeps (hvolume : volume.Stores first history)
    (hrun : Run (start volume rollSize) served reception) :
    reception.Keeps rollSize first history served := by
  induction hrun with
  | refl => exact keeps_start hvolume rollSize
  | accept _ ih =>
    obtain ⟨⟨hhandlers, hcoherent, hnamed, hkeeps⟩, hidle, hpublishes, hreplied, hreceived, hanswered⟩ :=
      ih
    refine ⟨⟨hhandlers, hcoherent, hnamed, hkeeps⟩, fun connection hmem => ?_, hpublishes, hreplied,
      hreceived, hanswered⟩
    rcases List.mem_append.mp hmem with hold | hnew
    · exact hidle connection hold
    · exact List.mem_singleton.mp hnew
  | publish _ index hindex body hlength offset topic data hbody now hnow hfits ih =>
    exact ih.publish_step hindex hlength hbody hnow hfits

/-- Every publish gets the one reply that the log of its topic calls for, of each topic the service
    has what it had at first and all that it acknowledged since, and its counters agree. -/
theorem Run.answers_by_log (hvolume : volume.Stores first history)
    (hrun : Run (start volume rollSize) served reception) :
    (∀ one ∈ served, one.Answered) ∧
      (∀ topic, topic.utf8ByteSize ≤ maxNameLength →
        ∃ stored, reception.service.store.current topic = .ok stored ∧
          stored.Holds (first topic) (history topic ++ Served.acknowledged topic served)) ∧
      reception.service.stats.publishes = served.length ∧
      reception.service.stats.publishes = reception.service.stats.acks +
        reception.service.stats.resets + reception.service.stats.failures ∧
      reception.service.stats.bytesReceived = Served.received served ∧
      ∀ topics : Finset String, (∀ topic ∈ topics, topic.utf8ByteSize ≤ maxNameLength) →
        (∀ one ∈ served, one.replies = [.ack one.topic] →
          ∃ topic ∈ topics, Utf8.encode topic = one.topic) →
        ∑ topic ∈ topics, reception.service.store.endOf topic =
          ∑ topic ∈ topics, (start volume rollSize).service.store.endOf topic +
            reception.service.stats.bytesReceived := by
  have hkeeps := hrun.keeps hvolume
  have hstart := (keeps_start hvolume rollSize).service
  refine ⟨hkeeps.answered, fun topic hshort => ?_, hkeeps.publishes,
    hkeeps.publishes.trans hkeeps.replied.symm, hkeeps.received, fun topics hshort htopics => ?_⟩
  · obtain ⟨stored, hcurrent, hstored, -, hfirst⟩ := hkeeps.service.keeps topic hshort
    exact ⟨stored, hcurrent, hfirst ▸ hstored.holds⟩
  · rw [hkeeps.received, ← Served.sum_acknowledged hkeeps.answered htopics, ← Finset.sum_add_distrib]
    refine Finset.sum_congr rfl fun topic hmem => ?_
    rw [hkeeps.service.endOf_eq (hshort topic hmem), hstart.endOf_eq (hshort topic hmem)]
    simp [Served.acknowledged]

/-- Two bytes arrive on one connection, and once more on another. -/
theorem answers_to_duplicate :
    ∃ served reception, Run (start {} 10) served reception ∧ (∀ one ∈ served, one.Answered) ∧
      served.map (·.replies) = [[.ack (Utf8.encode "t")], [.reset (Utf8.encode "t") 2]] ∧
      ∃ stored, reception.service.store.current "t" = .ok stored ∧ stored.Holds 0 [1, 2] := by
  let packet : Packet := .publish 0 (Utf8.encode "t") [1, 2]
  have hbody : Packet.decode packet.layout = .ok packet :=
    Packet.decode_layout (show packet.Encodable from ⟨by decide, by decide⟩)
  have hlength : packet.layout.length ≤ Frame.maxLength := by decide
  have hfits : ∀ reception : Reception, reception.Fits (Utf8.encode "t") 0 [1, 2] := by
    intro reception name hname hvalid
    rw [Utf8.decode?_encode, Option.some.injEq] at hname
    subst hname
    exact ⟨by decide, fun _ => by decide⟩
  have hstart : Run (start {} 10) [] (start {} 10) := .refl
  have hfirst := hstart.accept.accept.publish 0 (by decide)
    packet.layout hlength 0 (Utf8.encode "t") [1, 2] hbody ⟨0, 0⟩ (by decide) (hfits _)
  have hrun := hfirst.publish 1 (by decide +kernel) packet.layout hlength 0 (Utf8.encode "t") [1, 2]
    hbody ⟨0, 0⟩ (by decide) (hfits _)
  obtain ⟨hanswered, hholds, -⟩ := hrun.answers_by_log Volume.stores_empty
  refine ⟨_, _, hrun, hanswered, by decide +kernel, ?_⟩
  obtain ⟨stored, hcurrent, hstored⟩ := hholds "t" (by decide)
  refine ⟨stored, hcurrent, ?_⟩
  convert hstored using 1
  decide +kernel

end Reception

end ReplicatedLog
