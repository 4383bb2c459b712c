import ReplicatedLog.Proofs.Replication.Publishing
import ReplicatedLog.Proofs.Replication.Serving

namespace ReplicatedLog

namespace Sink

/-- A sink remembers that it was told of an offset. -/
def Recalls (sink : Sink) (topic : String) (offset : Nat) : Prop :=
  ∃ told, sink.told? = some told ∧ (topic, offset) ∈ told

/-- Someone was told that a topic is replicated up to an offset. -/
def Told (sinks : List Sink) (topic : String) (offset : Nat) : Prop :=
  ∃ sink ∈ sinks, sink.Recalls topic offset

variable {sink : Sink} {sinks : List Sink} {topic other : String} {offset place : Nat}
  {now : Instant}

theorem told_cons :
    Told (sink :: sinks) topic offset ↔ sink.Recalls topic offset ∨ Told sinks topic offset := by
  simp [Told]

/-- A sink is told nothing but what it is called for. -/
theorem recalls_store (hrecalls : (sink.store topic offset now).2.Recalls other place) :
    sink.Recalls other place ∨ other = topic ∧ place = offset := by
  obtain ⟨told, htold, hmem⟩ := hrecalls
  cases sink with
  | checkpoints dir => cases htold
  | journal before calls refused =>
    unfold store at htold
    by_cases hrefused : refused.contains (calls + 1)
    · simp only [if_pos hrefused] at htold
      obtain rfl := Option.some.inj htold
      exact Or.inl ⟨before, rfl, hmem⟩
    · simp only [if_neg hrefused] at htold
      obtain rfl := Option.some.inj htold
      rcases List.mem_append.mp hmem with hbefore | hnew
      · exact Or.inl ⟨before, rfl, hbefore⟩
      · exact Or.inr (Prod.mk.inj (List.mem_singleton.mp hnew))

theorem told_storeAll (htold : Told (storeAll topic offset now sinks).2 other place) :
    Told sinks other place ∨ other = topic ∧ place = offset := by
  induction sinks with
  | nil => exact Or.inl htold
  | cons sink rest ih =>
    have hsink := @recalls_store sink topic other offset place now
    rw [told_cons]
    unfold storeAll at htold
    rcases hstore : sink.store topic offset now with ⟨fault | _, after⟩
    · simp only [hstore, told_cons] at hsink htold
      rcases htold with hrecalls | hrest
      · exact (hsink hrecalls).imp_left Or.inl
      · exact Or.inl (Or.inr hrest)
    · simp only [hstore, told_cons] at hsink htold
      rcases htold with hrecalls | hrest
      · exact (hsink hrecalls).imp_left Or.inl
      · exact (ih hrest).imp_left Or.inr

end Sink

namespace Client

variable {client : Client} {topic : String} {publication : Publication}

theorem outstanding?_eq (hfound : client.publication? topic = some publication) :
    client.outstanding? topic = publication.outstanding.map fun length => (publication, length) := by
  rw [outstanding?, hfound]
  cases houtstanding : publication.outstanding <;> simp [houtstanding]

theorem outstanding?_eq_none (hnone : client.publication? topic = none) :
    client.outstanding? topic = none := by
  rw [outstanding?, hnone]
  rfl

theorem touches_count (client : Client) (stats : ClientStats) (topic : String) :
    client.Touches topic { client with stats } :=
  (Touches.refl client topic).congr rfl rfl

theorem clearOutstanding_spec (hfound : client.publication? topic = some publication)
    (stats : ClientStats) :
    client.Touches topic (clearOutstanding { client with stats } topic) ∧
      (clearOutstanding { client with stats } topic).publication? topic =
        some { publication with outstanding := none } :=
  ⟨(touches_count client stats topic).trans (touches_modify fun _ => rfl),
    publication?_modify_self (fun _ => rfl) hfound⟩

/-- The place of a publication is that of its reader. -/
theorem offsets_eq {store : Store} {stored : StoredLog} {cursor : Cursor}
    (hcoherent : store.Coherent) (hopen : store.peek? topic = some publication.handle.log)
    (hcurrent : store.current topic = .ok stored)
    (hfound : stored.log.cursorOf? publication.handle.reader = some cursor) :
    offsets publication store = (cursor.offset, cursor.maxOffset) := by
  obtain ⟨reader, hreader, rfl⟩ := hcoherent.reader?_eq hopen hcurrent hfound
  rw [offsets, hreader]

end Client

namespace Packet

/-- Up to where the service has a topic, as the client takes it from the reply to a publish. -/
def claims (reply : Packet) (offset length : Nat) : Option Nat :=
  match reply with
  | .ack _ => some (offset + length)
  | .reset _ place => some place
  | _ => none

/-- Where a topic goes on after the reply to a publish, if its log lies between two offsets. -/
def resumes (reply : Packet) (first last offset length : Nat) : Nat :=
  match reply with
  | .ack _ => offset + length
  | .reset _ place => if first ≤ place ∧ place ≤ last then place else offset
  | _ => offset

end Packet

namespace Producer

/-- What comes of a reply: nothing, if no publish waits for one. Else the sinks are told what it
    claims, and unless they refuse that, the topic goes on as the reply says. -/
inductive TakesUp (producer : Producer) (topic : String) (stored : StoredLog) (history : Bytes)
    (reply : Packet) {α : Type} (result : α) : Option Standing → Except Fault α × Producer → Prop
  | aside {standing : Option Standing} (hidle : standing.bind (·.outstanding) = none) :
      TakesUp producer topic stored history reply result standing (.ok result, producer)
  | refused {offset length : Nat} {fault : Fault} {after : Producer}
      (hturns : producer.Turns topic stored history (some ⟨offset, some length⟩) after)
      (htold : ∀ other place, Sink.Told after.sinks other place → Sink.Told producer.sinks other place ∨
        other = topic ∧ reply.claims offset length = some place) :
      TakesUp producer topic stored history reply result (some ⟨offset, some length⟩)
        (.error fault, after)
  | settled {offset length : Nat} {later : StoredLog} {after : Producer}
      (hturns : producer.Turns topic later history
        (some ⟨reply.resumes stored.log.firstOffset history.length offset length, none⟩) after)
      (hfirst : later.log.firstOffset = stored.log.firstOffset)
      (htold : ∀ other place, Sink.Told after.sinks other place → Sink.Told producer.sinks other place ∨
        other = topic ∧ reply.claims offset length = some place) :
      TakesUp producer topic stored history reply result (some ⟨offset, some length⟩)
        (.ok result, after)

variable {producer : Producer} {topic : String} {stored : StoredLog} {history : Bytes}
  {standing : Option Standing} {publication : Publication} {cursor : Cursor}

/-- A publish that waits, with its reader. -/
theorem Shows.outstanding_cases (hshows : producer.Shows topic stored history standing) :
    producer.client.outstanding? topic = none ∧ standing.bind (·.outstanding) = none ∨
      ∃ publication cursor length, producer.client.publication? topic = some publication ∧
        producer.client.outstanding? topic = some (publication, length) ∧
        publication.outstanding = some length ∧ publication.halted = false ∧
        producer.store.peek? topic = some publication.handle.log ∧
        stored.log.Tracked publication.handle.reader publication.halted cursor ∧
        length ≤ cursor.available ∧ standing = some ⟨cursor.offset, some length⟩ := by
  have hstands := hshows.stands
  cases hfound : producer.client.publication? topic with
  | none =>
    rw [hfound] at hstands
    cases hstands with
    | absent => exact Or.inl ⟨Client.outstanding?_eq_none hfound, rfl⟩
  | some publication =>
    rw [hfound] at hstands
    have hwaiting := Client.outstanding?_eq hfound
    cases hstands with
    | present hopen htracked hwaits =>
    next cursor =>
      cases houtstanding : publication.outstanding with
      | none =>
        rw [houtstanding] at hwaiting
        exact Or.inl ⟨hwaiting, rfl⟩
      | some length =>
        rw [houtstanding] at hwaiting
        obtain ⟨hreading, hlong⟩ := hwaits length houtstanding
        exact Or.inr ⟨publication, cursor, length, rfl, hwaiting, houtstanding, hreading, hopen,
          htracked, hlong, rfl⟩

/-- An acknowledgement moves the topic over the publish that waits. -/
theorem Shows.acknowledge_spec (hshows : producer.Shows topic stored history standing)
    (hcoherent : producer.store.Coherent) (moment : Moment) (name : Bytes) :
    producer.TakesUp topic stored history (.ack name) () standing
      (producer.acknowledge topic moment) := by
  have hself := hshows.turns_self hcoherent
  unfold acknowledge
  rcases hshows.outstanding_cases with ⟨hnone, hidle⟩ | ⟨publication, cursor, length, hfound,
    hwaiting, houtstanding, hreading, hopen, htracked, hlong, rfl⟩
  · rw [hnone]
    exact .aside hidle
  · have hplace := Client.offsets_eq hcoherent hopen hshows.current htracked.found
    obtain ⟨-, parts, hlaid, -⟩ := id hshows.keeps
    have hfollows := htracked.follows hreading
    have hbound := hfollows.available_le hlaid.ordered
    have htold : ∀ other place,
        Sink.Told (Sink.storeAll topic (cursor.offset + length) (.ofNanos moment.time) producer.sinks).2
          other place → Sink.Told producer.sinks other place ∨
            other = topic ∧ some (cursor.offset + length) = some place := fun other place hplaced =>
      (Sink.told_storeAll hplaced).imp_right fun hnew => ⟨hnew.1, congrArg some hnew.2.symm⟩
    simp only [hwaiting, hplace]
    rcases hstore : Sink.storeAll topic (cursor.offset + length) (.ofNanos moment.time) producer.sinks with
      ⟨fault | _, sinks⟩
    · rw [hstore] at htold
      exact .refused (hself.congr rfl rfl rfl) htold
    · rw [hstore] at htold
      obtain ⟨store, hcursor, -, hupdates⟩ := hcoherent.onCursor_spec hopen hshows.current
        htracked.found fun topic dir cursor => cursor.consume topic dir length
      have hspec := Cursor.consume_spec hlaid hfollows hlong topic
      rcases hconsume : cursor.consume topic stored.dir length with ⟨outcome, moved⟩
      rw [hconsume] at hspec hcursor hupdates
      simp only [hcursor]
      have htouches := producer.client.touches_count
        { producer.client.stats with acks := producer.client.stats.acks + 1 } topic
      cases hspec with
      | gap hoffset hmax =>
      next gap =>
        refine .settled (hshows.turns_setCursor htracked hopen hupdates
          ((htouches.trans (Client.touches_modify (by simp))).trans
            (Client.touches_cursorFailed _ topic (.discontinuity gap) moment)) hmax (by omega) hoffset
          ⟨_, Client.publication?_halt (Client.publication?_modify_self (by simp) hfound)
            (.discontinuity gap) rfl moment, rfl, rfl, by simp, by simp⟩) ?_ htold
        rfl
      | ok hmoved hoffset _ =>
        refine .settled (hshows.turns_setCursor htracked hopen hupdates
          ((htouches.trans (Client.touches_modify (by simp))).trans
            (Client.touches_modify (by simp))) hmoved.maxOffset_eq
          (hmoved.offset_le hshows.keeps.ordered) hoffset
          ⟨_, Client.publication?_modify_self (by simp)
              (Client.publication?_modify_self (by simp) hfound),
            rfl, rfl, fun _ => hmoved, by simp⟩) ?_ htold
        rfl

/-- A publish waits no more, and its reader did not move. -/
theorem Shows.turns_cleared (hshows : producer.Shows topic stored history standing)
    (hcoherent : producer.store.Coherent)
    (hopen : producer.store.peek? topic = some publication.handle.log)
    (htracked : stored.log.Tracked publication.handle.reader publication.halted cursor)
    {cleared : Client} (htouches : producer.client.Touches topic cleared)
    (hcleared : cleared.publication? topic = some { publication with outstanding := none })
    {after : Producer} (hstore : after.store = producer.store)
    (hadjusts : cleared.Adjusts topic after.client) :
    producer.Turns topic stored history (some ⟨cursor.offset, none⟩) after where
  updates := hstore ▸ hcoherent.updates_self hshows.current
  shows := by
    obtain ⟨found, hfound, hkin⟩ := hadjusts.kin _ hcleared
    refine ⟨hstore ▸ hshows.current, hshows.keeps, hshows.numbered, ?_⟩
    have hnone : found.outstanding = none := hkin.outstanding
    rw [hfound, ← hnone]
    refine .present ?_ ?_ fun length hlength => by simp [hnone] at hlength
    · rw [hstore, hkin.handle]
      exact hopen
    · rw [hkin.handle]
      exact ⟨htracked.found, htracked.maxOffset, htracked.bounded,
        fun hreading => htracked.follows (hkin.halted hreading)⟩
  touches := htouches.trans hadjusts.toTouches

/-- A publish whose bytes could not be read waits no more, and its reader did not move. -/
theorem Shows.turns_unread (hshows : producer.Shows topic stored history standing)
    (hcoherent : producer.store.Coherent)
    (hfound : producer.client.publication? topic = some publication) (moment : Moment) :
    ∃ place, producer.Turns topic stored history place { producer with
      client := (producer.client.clearOutstanding topic).scheduleRetry topic moment } := by
  obtain ⟨htouches, hcleared⟩ := producer.client.clearOutstanding_spec hfound producer.client.stats
  have hstands := hshows.stands
  rw [hfound] at hstands
  cases hstands with
  | present hopen htracked _ =>
    exact ⟨_, hshows.turns_cleared hcoherent hopen htracked htouches hcleared rfl
      (Client.scheduleRetry_adjusts _ topic moment)⟩

/-- A reset moves the topic to where the service wants to go on, if its log is there. -/
theorem Shows.reset_spec (hshows : producer.Shows topic stored history standing)
    (hcoherent : producer.store.Coherent) (place : Nat) (moment : Moment) (name : Bytes) :
    producer.TakesUp topic stored history (.reset name place) () standing
      (producer.reset topic place moment) := by
  have hself := hshows.turns_self hcoherent
  unfold reset
  rcases hshows.outstanding_cases with ⟨hnone, hidle⟩ | ⟨publication, cursor, length, hfound,
    hwaiting, houtstanding, hreading, hopen, htracked, hlong, rfl⟩
  · rw [hnone]
    exact .aside hidle
  · obtain ⟨hlength, -⟩ := id hshows.keeps
    have hordered := hshows.keeps.ordered
    have htold : ∀ other offset,
        Sink.Told (Sink.storeAll topic place (.ofNanos moment.time) producer.sinks).2 other offset →
          Sink.Told producer.sinks other offset ∨
            other = topic ∧ some place = some offset := fun other offset hplaced =>
      (Sink.told_storeAll hplaced).imp_right fun hnew => ⟨hnew.1, congrArg some hnew.2.symm⟩
    simp only [hwaiting]
    rcases hstore : Sink.storeAll topic place (.ofNanos moment.time) producer.sinks with
      ⟨fault | _, sinks⟩
    · rw [hstore] at htold
      exact .refused (hself.congr rfl rfl rfl) htold
    · rw [hstore] at htold
      obtain ⟨hchange, hcleared⟩ := producer.client.clearOutstanding_spec hfound
        { producer.client.stats with resets := producer.client.stats.resets + 1 }
      rcases hcoherent.seek_spec hopen hshows.current htracked.found place with
        ⟨fault, hplace, hseek⟩ | ⟨moved, store, hplace, hseek, hupdates⟩
      · have hstays : Packet.resumes (.reset name place) stored.log.firstOffset history.length
            cursor.offset length = cursor.offset := by
          refine if_neg fun ⟨hfirst, hlast⟩ => ?_
          obtain ⟨found, hfound⟩ := Cursor.exists_place hfirst (hlength ▸ hlast)
          rw [hfound] at hplace
          cases hplace
        simp only [hseek]
        refine .settled ?_ rfl htold
        rw [hstays]
        exact hshows.turns_cleared hcoherent hopen htracked hchange hcleared rfl
          (Client.cursorFailed_adjusts _ topic fault moment)
      · obtain ⟨hfollows, hoffset⟩ := Cursor.follows_of_place hplace
        have hfirst := hfollows.firstOffset_le hordered
        have hlast := hfollows.offset_le hordered
        have hmoves : Packet.resumes (.reset name place) stored.log.firstOffset history.length
            cursor.offset length = place :=
          if_pos ⟨hoffset ▸ hfirst, hlength ▸ hoffset ▸ hlast⟩
        simp only [hseek]
        refine .settled (hshows.turns_setCursor htracked hopen hupdates hchange
          hfollows.maxOffset_eq hlast (hoffset.trans hmoves.symm)
          ⟨_, hcleared, rfl, rfl, fun _ => hfollows, by simp⟩) ?_ htold
        rfl

/-- After a failure of the service the topic goes on where it was. -/
theorem Shows.refuse_spec (hshows : producer.Shows topic stored history standing)
    (hcoherent : producer.store.Coherent) (moment : Moment) (name : Bytes) :
    producer.TakesUp topic stored history (.failure name) topic standing
      (.ok topic, producer.refuse topic moment) := by
  unfold refuse
  rcases hshows.outstanding_cases with ⟨hnone, hidle⟩ | ⟨publication, cursor, length, hfound,
    hwaiting, houtstanding, hreading, hopen, htracked, hlong, rfl⟩
  · rw [hnone]
    exact .aside hidle
  · simp only [hwaiting]
    obtain ⟨hchange, hcleared⟩ := producer.client.clearOutstanding_spec hfound
      { producer.client.stats with failures := producer.client.stats.failures + 1 }
    refine .settled (hshows.turns_cleared hcoherent hopen htracked hchange hcleared rfl
      (Client.scheduleRetry_adjusts _ topic moment)) rfl fun other place hplaced => Or.inl hplaced

theorem TakesUp.map {reply : Packet} {α β : Type} {result : α} {outcome : Except Fault α}
    {after : Producer}
    (htakes : producer.TakesUp topic stored history reply result standing (outcome, after))
    (change : α → β) :
    producer.TakesUp topic stored history reply (change result) standing
      (outcome.map change, after) := by
  cases htakes with
  | aside hidle => exact .aside hidle
  | refused hturns htold => exact .refused hturns htold
  | settled hturns hfirst htold => exact .settled hturns hfirst htold

/-- A reply is taken up for its topic. -/
theorem Shows.handleReply_spec (hshows : producer.Shows topic stored history standing)
    (hcoherent : producer.store.Coherent) {reply : Packet}
    (hreply : reply.IsReply) (htopic : reply.topic = Utf8.encode topic) (moment : Moment) :
    producer.TakesUp topic stored history reply topic standing
      (producer.handleReply reply moment) := by
  unfold handleReply
  rw [htopic, Utf8.decode?_encode]
  cases reply with
  | publish offset name data => exact hreply.elim
  | ack name => exact (hshows.acknowledge_spec hcoherent moment name).map fun _ => topic
  | reset name place => exact (hshows.reset_spec hcoherent place moment name).map fun _ => topic
  | failure name => exact hshows.refuse_spec hcoherent moment name

/-- A reply to a topic for which nothing waits is put aside. -/
theorem handleReply_of_idle {packet : Packet} (hname : Utf8.decode? packet.topic = some topic)
    (hidle : producer.client.outstanding? topic = none) (hpacket : packet.IsReply) (moment : Moment) :
    producer.handleReply packet moment = (.ok topic, producer) := by
  unfold Producer.handleReply
  rw [hname]
  cases packet with
  | publish => exact hpacket.elim
  | ack => simp only [acknowledge, hidle, Except.map]
  | reset => simp only [reset, hidle, Except.map]
  | failure => simp only [refuse, hidle]

/-- After the loss of the connection every topic is where it was, with nothing that waits. -/
theorem Shows.disconnected (hshows : producer.Shows topic stored history standing) :
    Shows { producer with client := producer.client.disconnected } topic stored history
      (standing.map fun place => { place with outstanding := none }) := by
  refine ⟨hshows.current, hshows.keeps, hshows.numbered, ?_⟩
  have hstands := hshows.stands
  rw [Client.publication?_disconnected]
  cases hfound : producer.client.publication? topic with
  | none =>
    rw [hfound] at hstands
    cases hstands with
    | absent => exact .absent
  | some publication =>
    rw [hfound] at hstands
    cases hstands with
    | present hopen htracked hwaits => exact .present hopen htracked (by simp)

end Producer

end ReplicatedLog
