import ReplicatedLog.Proofs.Replication.ConnectionLoop
import ReplicatedLog.Proofs.Replication.Replies
import ReplicatedLog.Proofs.Replication.Resuming

namespace ReplicatedLog

namespace Producer

/-- A producer that replicates nothing yet. -/
def fresh (volume : Volume) (settings : SyncSettings) (sinks : List Sink) : Producer where
  store := { volume }
  client := { settings }
  sinks

/-- What can happen to a producer and its logs. Replies come whenever they like and say what they like.
    Logs keep to names that a directory can have, to years of four digits and to offsets of 64 bits. -/
inductive Step (producer : Producer) : Producer → Prop
  | append (topic : String) (data : Bytes) (rollSize : Nat) (now : Instant)
      (hshort : topic.utf8ByteSize ≤ maxNameLength) (hnow : now.InCalendar)
      (hfits : ∀ stored, producer.store.current topic = .ok stored →
        stored.log.maxOffset + data.length ≤ Decimal.maxValue) :
      Step producer (producer.change fun store => store.append topic data rollSize now).2
  | cleanup (topic : String) (retain : Nat) (now : Instant)
      (hshort : topic.utf8ByteSize ≤ maxNameLength) :
      Step producer (producer.change fun store => store.onTopic topic (·.cleanup retain now)).2
  | cleanupAll (topic : String) (retain external : Nat) (now : Instant)
      (hshort : topic.utf8ByteSize ≤ maxNameLength) :
      Step producer
        (producer.change fun store => store.onTopic topic (·.cleanupAll retain external now)).2
  /-- The client replicates a topic from an offset on. -/
  | register (topic : String) (offset : Nat) (hshort : topic.utf8ByteSize ≤ maxNameLength) :
      Step producer (producer.register topic offset).2
  /-- The client replicates a topic from where a new reader of some name stands. -/
  | enlist (topic name : String) (offset : Nat) (hshort : topic.utf8ByteSize ≤ maxNameLength) :
      Step producer (producer.enlist topic name offset)
  /-- The client replicates a topic from where its checkpoint says. -/
  | resume (topic : String) (now : Instant) (hshort : topic.utf8ByteSize ≤ maxNameLength)
      (hnow : now.InCalendar) : Step producer (producer.resume topic now).2
  /-- The client gives up the topic of a reader. -/
  | remove (handle : Handle) :
      Step producer { producer with
        client := (producer.client.remove producer.store handle).2.1
        store := (producer.client.remove producer.store handle).2.2 }
  | wake (topic : String) : Step producer { producer with client := producer.client.wake topic }
  | fire (time : Nat) : Step producer { producer with client := producer.client.fireTimers time }
  /-- The client looks for the next bytes of a topic. -/
  | look (topic : String) (moment : Moment) : Step producer (producer.nextPublish topic moment).2
  /-- The bytes that are to be published were read, or could not be read. -/
  | finishRead (topic : String) (moment : Moment) (region : Region) (outcome : Except IoFault Bytes) :
      Step producer (producer.finishRead topic moment region outcome).2
  | reply (packet : Packet) (moment : Moment) : Step producer (producer.handleReply packet moment).2
  | connect :
      Step producer { producer with client := { producer.client with queue := [], pending := [] } }
  | disconnect : Step producer { producer with client := producer.client.disconnected }
  /-- The program ends, and starts again on the files that it left. -/
  | restart (settings : SyncSettings) :
      Step producer (fresh producer.store.volume settings producer.sinks)

/-- A producer comes from another by whatever can happen to it. -/
inductive Reaches (start : Producer) : Producer → Prop
  | refl : Reaches start start
  | step {producer after : Producer} (hreaches : Reaches start producer)
      (hstep : producer.Step after) : Reaches start after

/-- A producer with a history of every topic. -/
structure Steady (producer : Producer) : Prop where
  coherent : producer.store.Coherent
  distinct : producer.client.Distinct
  short : ∀ topic publication, producer.client.publication? topic = some publication →
    topic.utf8ByteSize ≤ maxNameLength
  shows : ∀ topic, topic.utf8ByteSize ≤ maxNameLength →
    ∃ stored history standing, producer.Shows topic stored history standing

variable {producer after : Producer} {topic : String} {stored later : StoredLog}
  {history more : Bytes} {standing place : Option Standing} {publication : Publication}
  {cursor : Cursor}

namespace Steady

theorem turn (hsteady : producer.Steady) (hshort : topic.utf8ByteSize ≤ maxNameLength)
    (hturns : producer.Turns topic later more place after) : after.Steady where
  coherent := hturns.updates.coherent
  distinct := hturns.touches.distinct hsteady.distinct
  short other publication hfound := by
    by_cases hother : other = topic
    · exact hother ▸ hshort
    · rw [hturns.touches.others other hother] at hfound
      exact hsteady.short other publication hfound
  shows other hname := by
    by_cases hother : other = topic
    · subst hother
      exact ⟨later, more, place, hturns.shows⟩
    · obtain ⟨stored, history, standing, hshows⟩ := hsteady.shows other hname
      obtain ⟨same, -, hsame⟩ := hturns.shows_of_ne hother hname hshows
      exact ⟨same, history, standing, hsame⟩

/-- Only the publications of the client and the logs matter. -/
theorem congr (hsteady : producer.Steady) (hstore : after.store = producer.store)
    (hpublications : after.client.publications = producer.client.publications)
    (hsettings : after.client.settings = producer.client.settings) : after.Steady where
  coherent := hstore ▸ hsteady.coherent
  distinct := ((Client.Touches.refl producer.client "").congr hpublications hsettings).distinct
    hsteady.distinct
  short topic publication hfound := by
    rw [Client.publication?_congr hpublications] at hfound
    exact hsteady.short topic publication hfound
  shows topic hshort := by
    obtain ⟨stored, history, standing, hshows⟩ := hsteady.shows topic hshort
    exact ⟨stored, history, standing, hshows.congr hstore hpublications⟩

theorem disconnected (hsteady : producer.Steady) :
    Steady { producer with client := producer.client.disconnected } where
  coherent := hsteady.coherent
  distinct := hsteady.distinct.disconnected
  short topic publication hfound := by
    rw [Client.publication?_disconnected] at hfound
    obtain ⟨old, hold, -⟩ := Option.map_eq_some_iff.mp hfound
    exact hsteady.short topic old hold
  shows topic hshort := by
    obtain ⟨stored, history, standing, hshows⟩ := hsteady.shows topic hshort
    exact ⟨stored, history, _, hshows.disconnected⟩

/-- Whoever starts on the files that are left has a history of every topic, too. -/
theorem restart (hsteady : producer.Steady) (settings : SyncSettings) :
    (fresh producer.store.volume settings producer.sinks).Steady where
  coherent := nofun
  distinct := nofun
  short := nofun
  shows topic hshort := by
    obtain ⟨stored, history, standing, hshows⟩ := hsteady.shows topic hshort
    obtain ⟨second, hfinds⟩ := hshows.exists_finds hsteady.coherent settings producer.sinks
    obtain ⟨known, hknown⟩ := hfinds.exists_shows
    exact ⟨second, known, none, hknown⟩

theorem clean (hsteady : producer.Steady) (hshort : topic.utf8ByteSize ≤ maxNameLength) {α : Type}
    {work : StoredLog → Except Fault α × StoredLog}
    (hwork : ∀ stored history, stored.Keeps history → (work stored).2.Keeps history ∧
      (∃ gate, gate ≤ stored.log.gate ∧ stored.log.Cleaned gate (work stored).2.log) ∧
      (work stored).2.dir.nextId = stored.dir.nextId) :
    (producer.change fun store => store.onTopic topic work).2.Steady := by
  obtain ⟨stored, history, standing, hshows⟩ := hsteady.shows topic hshort
  obtain ⟨hkeeps, ⟨gate, hgate, hcleaned⟩, hid⟩ := hwork stored history hshows.keeps
  obtain ⟨later, hturns, -⟩ := hshows.clean_spec hsteady.coherent hshort hkeeps hcleaned hgate hid
  exact hsteady.turn hshort hturns

theorem remove (hsteady : producer.Steady) (handle : Handle) :
    Steady { producer with
      client := (producer.client.remove producer.store handle).2.1
      store := (producer.client.remove producer.store handle).2.2 } := by
  unfold Client.remove
  cases hpublication : producer.client.publications.find? fun publication =>
      publication.handle = handle with
  | none => exact hsteady
  | some publication =>
    have hfound := hsteady.distinct publication (List.mem_of_find?_eq_some hpublication)
    have hshort := hsteady.short _ _ hfound
    obtain ⟨stored, history, standing, hshows⟩ := hsteady.shows publication.topic hshort
    obtain ⟨later, hturns, -⟩ := hshows.release_spec hsteady.coherent hfound
    exact hsteady.turn hshort hturns

theorem nextPublish (hsteady : producer.Steady) (topic : String) (moment : Moment) :
    (producer.nextPublish topic moment).2.Steady := by
  cases hfound : producer.client.publication? topic with
  | none =>
    simp only [Producer.nextPublish, hfound]
    exact hsteady
  | some publication =>
    have hshort := hsteady.short topic publication hfound
    obtain ⟨stored, history, standing, hshows⟩ := hsteady.shows topic hshort
    have hchooses := hshows.nextPublish_spec hsteady.coherent moment
    generalize producer.nextPublish topic moment = chosen at hchooses
    cases hchooses with
    | nothing hturns => exact hsteady.turn hshort hturns
    | region hturns => exact hsteady.turn hshort hturns

theorem finishRead (hsteady : producer.Steady) (topic : String) (moment : Moment) (region : Region)
    (outcome : Except IoFault Bytes) :
    (producer.finishRead topic moment region outcome).2.Steady := by
  unfold Producer.finishRead
  cases outcome with
  | error fault =>
    cases hfound : producer.client.publication? topic with
    | none =>
      simp only [Client.clearOutstanding, Client.modify_of_none hfound, Client.scheduleRetry, hfound]
      exact hsteady
    | some publication =>
      have hshort := hsteady.short topic publication hfound
      obtain ⟨stored, history, standing, hshows⟩ := hsteady.shows topic hshort
      obtain ⟨place, hturns⟩ := hshows.turns_unread hsteady.coherent hfound moment
      exact hsteady.turn hshort hturns
  | ok data =>
    dsimp only
    split
    · exact hsteady
    · exact hsteady.congr rfl rfl rfl

theorem handleReply (hsteady : producer.Steady) (packet : Packet) (moment : Moment) :
    (producer.handleReply packet moment).2.Steady := by
  cases hname : Utf8.decode? packet.topic with
  | none =>
    simp only [Producer.handleReply, hname]
    exact hsteady
  | some topic =>
    by_cases hpacket : packet.IsReply
    · cases hfound : producer.client.publication? topic with
      | none =>
        rw [handleReply_of_idle hname (Client.outstanding?_eq_none hfound) hpacket]
        exact hsteady
      | some publication =>
        have hshort := hsteady.short topic publication hfound
        obtain ⟨stored, history, standing, hshows⟩ := hsteady.shows topic hshort
        have htakes := hshows.handleReply_spec hsteady.coherent hpacket
          (Utf8.encode_of_decode? hname).symm moment
        generalize producer.handleReply packet moment = taken at htakes
        cases htakes with
        | aside => exact hsteady
        | refused hturns => exact hsteady.turn hshort hturns
        | settled hturns => exact hsteady.turn hshort hturns
    · cases packet with
      | publish offset name data =>
        simp only [Producer.handleReply, hname]
        exact hsteady
      | _ => exact absurd trivial hpacket

/-- Whatever happens, there is a history of every topic. -/
theorem step (hsteady : producer.Steady) (hstep : producer.Step after) : after.Steady := by
  cases hstep with
  | append topic data rollSize now hshort hnow hfits =>
    obtain ⟨stored, history, standing, hshows⟩ := hsteady.shows topic hshort
    have hlength : (history ++ data).length ≤ Decimal.maxValue := by
      rw [List.length_append, hshows.keeps.1]
      exact hfits stored hshows.current
    obtain ⟨later, more, hturns, -, -⟩ :=
      hshows.append_spec hsteady.coherent hshort data rollSize hnow hlength
    exact hsteady.turn hshort hturns
  | cleanup topic retain now hshort =>
    refine hsteady.clean hshort fun stored history hkeeps => ?_
    obtain ⟨hafter, hcleaned, hid⟩ := hkeeps.cleanup retain now
    exact ⟨hafter, ⟨_, le_rfl, hcleaned⟩, hid⟩
  | cleanupAll topic retain external now hshort =>
    refine hsteady.clean hshort fun stored history hkeeps => ?_
    obtain ⟨hafter, hcleaned, hid⟩ := hkeeps.cleanupAll retain external now
    exact ⟨hafter, ⟨_, min_le_left _ _, hcleaned⟩, hid⟩
  | register topic offset hshort =>
    obtain ⟨stored, history, standing, hshows⟩ := hsteady.shows topic hshort
    obtain ⟨later, place, hturns, -⟩ := hshows.register_spec hsteady.coherent hshort offset
    exact hsteady.turn hshort hturns
  | enlist topic name offset hshort =>
    obtain ⟨stored, history, standing, hshows⟩ := hsteady.shows topic hshort
    obtain ⟨later, place, hturns, -⟩ := hshows.enlist_spec hsteady.coherent hshort name offset
    exact hsteady.turn hshort hturns
  | resume topic now hshort hnow =>
    obtain ⟨stored, history, standing, hshows⟩ := hsteady.shows topic hshort
    obtain ⟨outcome, resumed, later, more, place, hresume, hturns, -⟩ :=
      hshows.resume_spec hsteady.coherent hshort hnow
    rw [hresume]
    exact hsteady.turn hshort hturns
  | remove handle => exact hsteady.remove handle
  | wake topic =>
    obtain ⟨hpublications, hsettings⟩ := Client.publications_wake producer.client topic
    exact hsteady.congr rfl hpublications hsettings
  | fire time =>
    obtain ⟨hpublications, hsettings⟩ := Client.publications_fireThose producer.client _
    exact hsteady.congr rfl hpublications hsettings
  | look topic moment => exact hsteady.nextPublish topic moment
  | finishRead topic moment region outcome => exact hsteady.finishRead topic moment region outcome
  | reply packet moment => exact hsteady.handleReply packet moment
  | connect => exact hsteady.congr rfl rfl rfl
  | disconnect => exact hsteady.disconnected
  | restart settings => exact hsteady.restart settings

end Steady

theorem Reaches.steady {volume : Volume} {settings : SyncSettings} {sinks : List Sink}
    {first : String → Nat} {kept : String → Bytes} (hvolume : volume.Stores first kept)
    (hreaches : Reaches (fresh volume settings sinks) producer) : producer.Steady := by
  induction hreaches with
  | refl =>
    refine ⟨nofun, nofun, nofun, fun topic hshort => ?_⟩
    obtain ⟨stored, hstored, hkeeps, -, -, hreaders⟩ := (hvolume topic hshort).exists_keeps
    refine ⟨stored, kept topic, none, hstored, hkeeps, fun reader hmem => ?_, .absent⟩
    rw [hreaders] at hmem
    cases hmem
  | step _ hstep ih => exact ih.step hstep

variable {offset : Nat} {waiting : Option Nat} {name : Bytes}

/-- The service answers the publish that waits with a reset that goes beyond the log. The reader rejects
    that offset, so no log and no reader moves, and the topic is given up unless a sink refuses the
    offset. -/
structure Overreaches (producer : Producer) (topic : String) (stored : StoredLog) (offset : Nat)
    (moment : Moment) (after : Producer) : Prop where
  beyond : stored.log.maxOffset < offset
  asked : ∃ name, Utf8.decode? name = some topic ∧
    after = (producer.handleReply (.reset name offset) moment).2
  rejected : ∃ publication length, producer.client.outstanding? topic = some (publication, length) ∧
    producer.store.seek publication.handle offset =
      (.error (.invalidOffset offset stored.log.maxOffset), producer.store) ∧
    ((Sink.storeAll topic offset (.ofNanos moment.time) producer.sinks).1 = .ok () →
      after.client.publication? topic = some { publication with outstanding := none, halted := true })
  unmoved : after.store = producer.store

/-- What the sinks are told when a producer becomes another: nothing, or one offset, which the log of
    its topic has unless a reset overreaches. -/
def Records (producer after : Producer) : Prop :=
  after.sinks = producer.sinks ∨ ∃ topic stored offset moment,
    producer.store.current topic = .ok stored ∧
    after.sinks = (Sink.storeAll topic offset (.ofNanos moment.time) producer.sinks).2 ∧
    (offset ≤ stored.log.maxOffset ∨ producer.Overreaches topic stored offset moment after)

/-- What is acknowledged was read, so the log has it. -/
theorem Shows.records_acknowledge (hshows : producer.Shows topic stored history standing)
    (hcoherent : producer.store.Coherent) (moment : Moment) :
    producer.Records (producer.acknowledge topic moment).2 := by
  unfold acknowledge
  rcases hshows.outstanding_cases with ⟨hnone, -⟩ | ⟨publication, cursor, length, -, hwaiting, -,
    hreading, hopen, htracked, hlong, -⟩
  · simp only [hnone]
    exact Or.inl rfl
  · have hplace := Client.offsets_eq hcoherent hopen hshows.current htracked.found
    have hbound := (htracked.follows hreading).available_le hshows.keeps.ordered
    simp only [hwaiting, hplace]
    refine Or.inr ⟨topic, stored, cursor.offset + length, moment, hshows.current, ?_, Or.inl (by omega)⟩
    rcases Sink.storeAll topic (cursor.offset + length) (.ofNanos moment.time) producer.sinks with
      ⟨_ | _, sinks⟩ <;> rfl

theorem handleReply_reset (hname : Utf8.decode? name = some topic) (offset : Nat) (moment : Moment) :
    (producer.handleReply (.reset name offset) moment).2 = (producer.reset topic offset moment).2 := by
  simp only [handleReply, Packet.topic, hname]

/-- A reader cannot go beyond its log. -/
theorem Shows.seek_beyond (hshows : producer.Shows topic stored history standing)
    (hcoherent : producer.store.Coherent)
    (hopen : producer.store.peek? topic = some publication.handle.log)
    (hfound : stored.log.cursorOf? publication.handle.reader = some cursor)
    (hbeyond : stored.log.maxOffset < offset) :
    producer.store.seek publication.handle offset =
      (.error (.invalidOffset offset stored.log.maxOffset), producer.store) := by
  have hreject : Cursor.place stored.log.segments stored.log.maxOffset offset =
      .error (.invalidOffset offset stored.log.maxOffset) := if_pos hbeyond
  rcases hcoherent.seek_spec hopen hshows.current hfound offset with
    ⟨fault, hplace, hseek⟩ | ⟨moved, sought, hplace, -⟩
  · obtain rfl := Except.error.inj (hreject.symm.trans hplace)
    exact hseek
  · rw [hreject] at hplace
    cases hplace

/-- A reset beyond the log moves nothing. -/
theorem Shows.overreaches (hshows : producer.Shows topic stored history standing)
    (hcoherent : producer.store.Coherent) (hname : Utf8.decode? name = some topic)
    (hwaiting : (producer.client.outstanding? topic).isSome) (hbeyond : stored.log.maxOffset < offset)
    (moment : Moment) :
    producer.Overreaches topic stored offset moment
      (producer.handleReply (.reset name offset) moment).2 := by
  rcases hshows.outstanding_cases with ⟨hnone, -⟩ | ⟨publication, cursor, length, hfound, houtstanding,
    -, -, hopen, htracked, -, -⟩
  · simp [hnone] at hwaiting
  · have hseek := hshows.seek_beyond hcoherent hopen htracked.found hbeyond
    obtain ⟨-, hcleared⟩ := producer.client.clearOutstanding_spec hfound
      { producer.client.stats with resets := producer.client.stats.resets + 1 }
    refine ⟨hbeyond, ⟨name, hname, rfl⟩,
      ⟨publication, length, houtstanding, hseek, fun hstored => ?_⟩, ?_⟩
    · rw [handleReply_reset hname]
      simp only [reset, houtstanding, hseek]
      rcases hstore : Sink.storeAll topic offset (.ofNanos moment.time) producer.sinks with
        ⟨fault | _, sinks⟩
      · rw [hstore] at hstored
        cases hstored
      · exact Client.publication?_halt hcleared (.invalidOffset offset stored.log.maxOffset) rfl moment
    · rw [handleReply_reset hname]
      simp only [reset, houtstanding, hseek]
      rcases Sink.storeAll topic offset (.ofNanos moment.time) producer.sinks with ⟨_ | _, sinks⟩ <;> rfl

theorem Shows.records_reset (hshows : producer.Shows topic stored history standing)
    (hcoherent : producer.store.Coherent) (hname : Utf8.decode? name = some topic)
    (offset : Nat) (moment : Moment) :
    producer.Records (producer.handleReply (.reset name offset) moment).2 := by
  cases hwaiting : producer.client.outstanding? topic with
  | none =>
    rw [handleReply_reset hname]
    simp only [reset, hwaiting]
    exact Or.inl rfl
  | some waiting =>
    refine Or.inr ⟨topic, stored, offset, moment, hshows.current, ?_, ?_⟩
    · rw [handleReply_reset hname]
      simp only [reset, hwaiting]
      rcases Sink.storeAll topic offset (.ofNanos moment.time) producer.sinks with ⟨_ | _, sinks⟩ <;> rfl
    · rcases Nat.lt_or_ge stored.log.maxOffset offset with hbeyond | hwithin
      · exact Or.inr (hshows.overreaches hcoherent hname (by rw [hwaiting]; rfl) hbeyond moment)
      · exact Or.inl hwithin

theorem sinks_refuse (producer : Producer) (topic : String) (moment : Moment) :
    (producer.refuse topic moment).sinks = producer.sinks := by
  unfold refuse
  split <;> rfl

namespace Steady

theorem records_reply (hsteady : producer.Steady) (packet : Packet) (moment : Moment) :
    producer.Records (producer.handleReply packet moment).2 := by
  cases hname : Utf8.decode? packet.topic with
  | none =>
    simp only [Producer.handleReply, hname]
    exact Or.inl rfl
  | some topic =>
    by_cases hpacket : packet.IsReply
    · cases hfound : producer.client.publication? topic with
      | none =>
        rw [handleReply_of_idle hname (Client.outstanding?_eq_none hfound) hpacket]
        exact Or.inl rfl
      | some publication =>
        have hshort := hsteady.short topic publication hfound
        obtain ⟨stored, history, standing, hshows⟩ := hsteady.shows topic hshort
        cases packet with
        | publish => exact hpacket.elim
        | ack bytes =>
          simp only [Producer.handleReply, hname]
          exact hshows.records_acknowledge hsteady.coherent moment
        | reset bytes offset => exact hshows.records_reset hsteady.coherent hname offset moment
        | failure bytes =>
          simp only [Producer.handleReply, hname]
          exact Or.inl (producer.sinks_refuse topic moment)
    · cases packet with
      | publish offset bytes data =>
        simp only [Producer.handleReply, hname]
        exact Or.inl rfl
      | _ => exact absurd trivial hpacket

/-- Only replies make a producer tell its sinks anything. -/
theorem records (hsteady : producer.Steady) (hstep : producer.Step after) :
    producer.Records after := by
  cases hstep with
  | reply packet moment => exact hsteady.records_reply packet moment
  | register topic offset => exact Or.inl (producer.sinks_register topic offset)
  | enlist topic name offset => exact Or.inl (producer.sinks_enlist topic name offset)
  | resume topic now hshort hnow =>
    obtain ⟨stored, history, standing, hshows⟩ := hsteady.shows topic hshort
    obtain ⟨outcome, resumed, later, more, place, hresume, -, hsinks, -⟩ :=
      hshows.resume_spec hsteady.coherent hshort hnow
    rw [hresume]
    exact Or.inl hsinks
  | look topic moment => exact Or.inl (producer.sinks_nextPublish topic moment)
  | finishRead topic moment region outcome =>
    exact Or.inl (producer.sinks_finishRead topic moment region outcome)
  | _ => exact Or.inl rfl

end Steady

/-- For a topic that is replicated, what a cleanup is told to be safe counts up to the end of the log. -/
theorem Shows.cleanupAll_min (hshows : producer.Shows topic stored history standing)
    (hfound : producer.client.publication? topic = some publication) (retain external : Nat)
    (now : Instant) :
    stored.cleanupAll retain (min external stored.log.maxOffset) now =
      stored.cleanupAll retain external now := by
  have hstands := hshows.stands
  rw [hfound] at hstands
  cases hstands with
  | present _ htracked _ =>
    exact StoredLog.cleanupAll_min ((TopicLog.gate_le htracked.found).trans htracked.bounded) retain
      external now

/-- A topic is replicated from its checkpoint on, or else from the place in its log next to that. -/
structure TakenUp (producer : Producer) (topic : String) (mark : Option Nat) (stored : StoredLog) :
    Prop where
  current : producer.store.current topic = .ok stored
  ordered : stored.log.firstOffset ≤ stored.log.maxOffset
  stands : ∃ publication, producer.client.publication? topic = some publication ∧
    Client.offsets publication producer.store =
      (min (max (mark.getD stored.log.firstOffset) stored.log.firstOffset) stored.log.maxOffset,
        stored.log.maxOffset)

theorem Shows.takenUp {mark : Option Nat} (hshows : producer.Shows topic stored history
      (some ⟨min (max (mark.getD stored.log.firstOffset) stored.log.firstOffset) stored.log.maxOffset,
        waiting⟩)) (hcoherent : producer.store.Coherent) : producer.TakenUp topic mark stored where
  current := hshows.current
  ordered := hshows.keeps.firstOffset_le.trans hshows.keeps.1.le
  stands := by
    obtain ⟨publication, cursor, hfound, hopen, htracked, hoffset, -⟩ := hshows.stands.exists_tracked
    refine ⟨publication, hfound, ?_⟩
    rw [Client.offsets_eq hcoherent hopen hshows.current htracked.found, htracked.maxOffset, hoffset]

/-- Whatever a service answers, its client tells the sinks no offset beyond the log, but that of a reset
    that the reader rejects. Such an offset makes no difference to a cleanup, and a topic that is taken
    up where its checkpoint says still stands within its log. -/
theorem Reaches.records_within_log {volume : Volume} {settings : SyncSettings} {sinks : List Sink}
    {first : String → Nat} {kept : String → Bytes} (hvolume : volume.Stores first kept)
    (hreaches : Reaches (fresh volume settings sinks) producer) :
    (∀ after, producer.Step after → producer.Records after) ∧
      (∀ topic publication stored, producer.client.publication? topic = some publication →
        producer.store.current topic = .ok stored → ∀ retain external now,
          stored.cleanupAll retain external now =
            stored.cleanupAll retain (min external stored.log.maxOffset) now) ∧
      ∀ topic now stored after, topic.utf8ByteSize ≤ maxNameLength → now.InCalendar →
        producer.store.current topic = .ok stored → producer.resume topic now = (.ok (), after) →
          ∃ mark later, Checkpoint.load producer.checkpoints topic = .ok mark ∧
            stored.PicksUp mark later ∧ after.TakenUp topic mark later := by
  have hsteady := hreaches.steady hvolume
  refine ⟨fun after hstep => hsteady.records hstep, ?_, ?_⟩
  · intro topic publication stored hfound hcurrent retain external now
    obtain ⟨other, history, standing, hshows⟩ :=
      hsteady.shows topic (hsteady.short topic publication hfound)
    obtain rfl := Except.ok.inj (hcurrent.symm.trans hshows.current)
    exact (hshows.cleanupAll_min hfound retain external now).symm
  · intro topic now stored after hshort hnow hcurrent hresumed
    obtain ⟨other, history, standing, hshows⟩ := hsteady.shows topic hshort
    obtain rfl := Except.ok.inj (hcurrent.symm.trans hshows.current)
    obtain ⟨outcome, resumed, later, more, place, hresume, hturns, -, hplace⟩ :=
      hshows.resume_spec hsteady.coherent hshort hnow
    obtain ⟨rfl, rfl⟩ := Prod.mk.inj (hresume.symm.trans hresumed)
    obtain ⟨mark, hload, rfl, hpicks⟩ := hplace rfl
    exact ⟨mark, later, hload, hpicks, hturns.shows.takenUp hturns.updates.coherent⟩

/-- A client that waits for the reply to a publish of two bytes. -/
def asking (sinks : List Sink) : Producer :=
  let appended := ((fresh {} {} sinks).change fun store => store.append "t" [1, 2] 10 ⟨0, 0⟩).2
  ((appended.register "t" 0).2.nextPublish "t" ⟨0, 0⟩).2

theorem reaches_asking (sinks : List Sink) : Reaches (fresh {} {} sinks) (asking sinks) := by
  have happended : Reaches (fresh {} {} sinks) _ :=
    Reaches.refl.step (.append "t" [1, 2] 10 ⟨0, 0⟩ (by decide) (by decide) fun stored hstored => by
      obtain rfl := Except.ok.inj hstored
      change 0 + 2 ≤ Decimal.maxValue
      decide)
  exact (happended.step (.register "t" 0 (by decide))).step (.look "t" ⟨0, 0⟩)

/-- A service wants a topic of two bytes from 500 on. The topic is given up. A cleanup that relies on 500
    relies on the two bytes, and after a restart the topic goes on behind them. -/
theorem records_rejected_reset :
    let producer := asking [.journal [] 0 [], .checkpoints {}]
    let after := (producer.handleReply (.reset (Utf8.encode "t") 500) ⟨0, 0⟩).2
    let restarted := fresh after.store.volume {} after.sinks
    (∃ stored moment, producer.store.current "t" = .ok stored ∧ stored.log.maxOffset = 2 ∧
      producer.Overreaches "t" stored 500 moment after ∧
      ∀ retain now, stored.cleanupAll retain 500 now = stored.cleanupAll retain 2 now) ∧
    Checkpoint.load restarted.checkpoints "t" = .ok (some 500) ∧
      ∃ resumed publication, restarted.resume "t" ⟨0, 0⟩ = (.ok (), resumed) ∧
        resumed.client.publication? "t" = some publication ∧
        Client.offsets publication resumed.store = (2, 2) := by
  intro producer after restarted
  have hreaches : Reaches _ producer := reaches_asking [.journal [] 0 [], .checkpoints {}]
  have hreply : producer.Step after := .reply (.reset (Utf8.encode "t") 500) ⟨0, 0⟩
  have hrestart : Reaches _ restarted := (hreaches.step hreply).step (.restart {})
  obtain ⟨hrecords, hclean, -⟩ := hreaches.records_within_log Volume.stores_empty
  obtain ⟨-, -, hresume⟩ := hrestart.records_within_log Volume.stores_empty
  constructor
  · have hmax : (producer.store.current "t").toOption.map (·.log.maxOffset) = some 2 := by
      decide +kernel
    have hreplicated : (producer.client.publication? "t").isSome = true := by decide +kernel
    have hbefore : producer.sinks = [.journal [] 0 [], .checkpoints {}] := by decide +kernel
    have hafter : after.sinks.findSome? Sink.told? = some [("t", 500)] := by decide +kernel
    obtain ⟨publication, hfound⟩ := Option.isSome_iff_exists.mp hreplicated
    rcases hrecords after hreply with hsame | ⟨topic, stored, offset, moment, hcurrent, hsinks, hbound⟩
    · rw [hsame, hbefore] at hafter
      cases hafter
    · rw [hsinks, hbefore] at hafter
      have htold : some [(topic, offset)] = some [("t", 500)] := hafter
      obtain ⟨rfl, rfl⟩ : topic = "t" ∧ offset = 500 := by simpa using htold
      rw [hcurrent] at hmax
      have hlength : stored.log.maxOffset = 2 := Option.some.inj hmax
      refine ⟨stored, moment, hcurrent, hlength, hbound.resolve_left (by omega), fun retain now => ?_⟩
      have hcapped := hclean "t" publication stored hfound hcurrent retain 500 now
      rwa [hlength] at hcapped
  · have hready : (restarted.store.current "t").toOption.isSome = true := by decide +kernel
    have hmark : (Checkpoint.load restarted.checkpoints "t").toOption = some (some 500) := by
      decide +kernel
    have hdone : (restarted.resume "t" ⟨0, 0⟩).1.toOption = some () := by decide +kernel
    have hmax : ((restarted.resume "t" ⟨0, 0⟩).2.store.current "t").toOption.map
        (·.log.maxOffset) = some 2 := by decide +kernel
    rcases hresumed : restarted.resume "t" ⟨0, 0⟩ with ⟨_ | _, resumed⟩
    · rw [hresumed] at hdone
      cases hdone
    · cases hcurrent : restarted.store.current "t" with
      | error fault =>
        rw [hcurrent] at hready
        cases hready
      | ok stored =>
        obtain ⟨mark, later, hload, -, htaken⟩ :=
          hresume "t" ⟨0, 0⟩ stored resumed (by decide) (by decide) hcurrent hresumed
        obtain ⟨publication, hfound, hoffsets⟩ := htaken.stands
        rw [hload] at hmark
        rw [hresumed, htaken.current] at hmax
        obtain rfl : mark = some 500 := Option.some.inj hmark
        have hlength : later.log.maxOffset = 2 := Option.some.inj hmax
        have hbehind : 2 ≤ max 500 later.log.firstOffset := le_max_of_le_left (by decide)
        refine ⟨hload, resumed, publication, rfl, hfound, ?_⟩
        rw [hoffsets, hlength, Option.getD_some, min_eq_right hbehind]

/-- The sinks are told what the log has not: here that 500 bytes of a topic are safe, which has two. -/
theorem overtold_by_reset :
    let producer := asking [.journal [] 0 []]
    Reaches (fresh {} {} [.journal [] 0 []]) producer ∧
      Sink.Told (producer.handleReply (.reset (Utf8.encode "t") 500) ⟨0, 0⟩).2.sinks "t" 500 ∧
      ∃ stored, producer.store.current "t" = .ok stored ∧ stored.log.maxOffset = 2 := by
  intro producer
  have hsinks : (producer.handleReply (.reset (Utf8.encode "t") 500) ⟨0, 0⟩).2.sinks =
      [.journal [("t", 500)] 1 []] := by decide +kernel
  have hmax : (producer.store.current "t").toOption.map (·.log.maxOffset) = some 2 := by
    decide +kernel
  refine ⟨reaches_asking _, by simp [hsinks, Sink.Told, Sink.Recalls, Sink.told?], ?_⟩
  cases hcurrent : producer.store.current "t" with
  | error fault =>
    rw [hcurrent] at hmax
    cases hmax
  | ok stored =>
    rw [hcurrent] at hmax
    exact ⟨stored, rfl, Option.some.inj hmax⟩

end Producer

end ReplicatedLog
