import ReplicatedLog.Proofs.Retry
import ReplicatedLog.Proofs.Replication.System
import ReplicatedLog.Proofs.Wire.Packet

namespace ReplicatedLog

namespace Client

/-- A topic was given up. -/
def Halts (client : Client) (topic : String) : Prop :=
  ∃ publication, client.publication? topic = some publication ∧ publication.halted = true

/-- The failures of a topic used up its attempts. -/
def Spent (client : Client) (topic : String) : Prop :=
  ∃ publication, client.publication? topic = some publication ∧
    client.settings.retry.allows publication.failures = false

/-- No topic was given up, or has fewer attempts left. -/
structure Spares (client after : Client) : Prop where
  halts : ∀ topic, after.Halts topic → client.Halts topic
  spent : ∀ topic, after.Spent topic → client.Spent topic

/-- What was given up had no attempts left, or there was some other cause. -/
def GivesUp (client : Client) (Cause : String → Prop) (after : Client) : Prop :=
  ∀ topic, after.Halts topic → client.Halts topic ∨ client.Spent topic ∨ Cause topic

variable {client middle after : Client} {topic : String} {Cause : String → Prop}
  {change : Publication → Publication}

theorem Spares.trans (hfirst : client.Spares middle) (hsecond : middle.Spares after) :
    client.Spares after where
  halts topic hhalts := hfirst.halts topic (hsecond.halts topic hhalts)
  spent topic hspent := hfirst.spent topic (hsecond.spent topic hspent)

theorem Spares.givesUp (hspares : client.Spares after) : client.GivesUp Cause after :=
  fun topic hhalts => Or.inl (hspares.halts topic hhalts)

theorem Spares.trans_givesUp (hspares : client.Spares middle) (hgives : middle.GivesUp Cause after) :
    client.GivesUp Cause after :=
  fun topic hhalts => (hgives topic hhalts).imp (hspares.halts topic)
    (Or.imp_left (hspares.spent topic))

theorem GivesUp.trans_spares (hgives : client.GivesUp Cause middle) (hspares : middle.Spares after) :
    client.GivesUp Cause after :=
  fun topic hhalts => hgives topic (hspares.halts topic hhalts)

/-- Every publication is a fresh one, or an old one that is halted no more and failed no more than
    before. -/
theorem spares_of_found (hsettings : after.settings = client.settings)
    (hfound : ∀ topic later, after.publication? topic = some later →
      later.halted = false ∧ later.failures = 0 ∨
        ∃ publication, client.publication? topic = some publication ∧
          later.halted = publication.halted ∧ later.failures ≤ publication.failures) :
    client.Spares after where
  halts topic hhalts := by
    obtain ⟨later, hlater, hhalted⟩ := hhalts
    rcases hfound topic later hlater with ⟨hreading, -⟩ | ⟨publication, hold, hsame, -⟩
    · rw [hreading] at hhalted
      cases hhalted
    · exact ⟨publication, hold, hsame.symm.trans hhalted⟩
  spent topic hspent := by
    obtain ⟨later, hlater, hrefused⟩ := hspent
    rw [hsettings] at hrefused
    rcases hfound topic later hlater with ⟨-, hzero⟩ | ⟨publication, hold, -, hle⟩
    · rw [hzero, RetryPolicy.allows_zero] at hrefused
      cases hrefused
    · exact ⟨publication, hold, RetryPolicy.allows_antitone hle hrefused⟩

theorem spares_of_publications (hpublications : after.publications = client.publications)
    (hsettings : after.settings = client.settings) : client.Spares after :=
  spares_of_found hsettings fun topic later hlater =>
    Or.inr ⟨later, (publication?_congr hpublications topic).symm.trans hlater, rfl, le_rfl⟩

theorem spares_modify (hchange : ∀ publication, (change publication).topic = publication.topic ∧
      (change publication).halted = publication.halted ∧
      (change publication).failures ≤ publication.failures) :
    client.Spares (client.modify topic change) := by
  refine spares_of_found rfl fun other later hlater => Or.inr ?_
  rw [publication?_modify fun publication => (hchange publication).1] at hlater
  obtain ⟨publication, hfound, rfl⟩ := Option.map_eq_some_iff.mp hlater
  refine ⟨publication, hfound, ?_⟩
  by_cases htopic : publication.topic = topic
  · rw [if_pos htopic]
    exact (hchange publication).2
  · rw [if_neg htopic]
    exact ⟨rfl, le_rfl⟩

theorem spares_disconnected (client : Client) : client.Spares client.disconnected := by
  refine spares_of_found rfl fun topic later hlater => Or.inr ?_
  rw [publication?_disconnected] at hlater
  obtain ⟨publication, hfound, rfl⟩ := Option.map_eq_some_iff.mp hlater
  exact ⟨publication, hfound, rfl, le_rfl⟩

theorem clearOutstanding_spares (client : Client) (topic : String) :
    client.Spares (client.clearOutstanding topic) :=
  spares_modify (by simp)

theorem halts_of_modify {other : String}
    (hchange : ∀ publication, (change publication).topic = publication.topic)
    (hhalts : (client.modify topic change).Halts other) :
    client.Halts other ∨ other = topic ∧ ∃ publication,
      client.publication? topic = some publication ∧ (change publication).halted = true := by
  obtain ⟨later, hlater, hhalted⟩ := hhalts
  by_cases hother : other = topic
  · subst hother
    rw [publication?_modify hchange] at hlater
    obtain ⟨publication, hfound, rfl⟩ := Option.map_eq_some_iff.mp hlater
    rw [if_pos (mem_of_publication? hfound).2] at hhalted
    exact Or.inr ⟨rfl, publication, hfound, hhalted⟩
  · rw [publication?_modify_of_ne hchange hother] at hlater
    exact Or.inl ⟨later, hlater, hhalted⟩

theorem scheduleRetry_givesUp (client : Client) (topic : String) (moment : Moment) :
    client.GivesUp Cause (client.scheduleRetry topic moment) := by
  unfold scheduleRetry
  cases hfound : client.publication? topic with
  | none => exact fun _ => Or.inl
  | some publication =>
    by_cases hallowed : client.settings.retry.allows publication.failures = true
    · simp only [if_pos hallowed]
      intro other hhalts
      obtain ⟨failures, due, hmodified⟩ : ∃ failures due, (client.modify topic fun old =>
          { old with failures, retryAt := some due }).Halts other := ⟨_, _, hhalts⟩
      rcases halts_of_modify (by simp) hmodified with hbefore | ⟨rfl, old, hold, hhalted⟩
      · exact Or.inl hbefore
      · exact Or.inl ⟨old, hold, hhalted⟩
    · simp only [if_neg hallowed]
      intro other hhalts
      rcases halts_of_modify (by simp) hhalts with hbefore | ⟨rfl, -⟩
      · exact Or.inl hbefore
      · exact Or.inr (Or.inl ⟨publication, hfound, Bool.eq_false_of_not_eq_true hallowed⟩)

theorem cursorFailed_givesUp {fault : Fault} (moment : Moment)
    (hcause : fault.isFatal = true → Cause topic) :
    client.GivesUp Cause (client.cursorFailed topic fault moment) := by
  unfold cursorFailed
  by_cases hfatal : fault.isFatal = true
  · rw [if_pos hfatal]
    intro other hhalts
    rcases halts_of_modify (by simp) hhalts with hbefore | ⟨rfl, -⟩
    · exact Or.inl hbefore
    · exact Or.inr (Or.inr (hcause hfatal))
  · rw [if_neg hfatal]
    exact scheduleRetry_givesUp client topic moment

/-- A topic that is taken up starts anew. -/
theorem spares_insert {publication : Publication}
    (hnone : client.publication? publication.topic = none) (hreading : publication.halted = false)
    (hzero : publication.failures = 0) :
    client.Spares (wake { client with
      publications := insertPublication publication client.publications } publication.topic) := by
  obtain ⟨htouches, hjoined⟩ := insert_spec hnone rfl
  refine spares_of_found htouches.settings fun topic later hlater => ?_
  by_cases htopic : topic = publication.topic
  · rw [htopic, hjoined] at hlater
    obtain rfl := Option.some.inj hlater
    exact Or.inl ⟨hreading, hzero⟩
  · rw [htouches.others topic htopic] at hlater
    exact Or.inr ⟨later, hlater, rfl, le_rfl⟩

theorem add_spares (client : Client) (store : Store) (handle : Handle) :
    client.Spares (client.add store handle).2.1 := by
  have hself : client.Spares client := spares_of_publications rfl rfl
  unfold add
  split
  · exact hself
  · dsimp only
    split
    · exact hself
    · split
      · exact hself
      next hnone =>
        exact spares_insert (by simpa using hnone) rfl rfl

theorem register_spares (client : Client) (store : Store) (number offset : Nat) :
    client.Spares (client.register store number offset).2.1 := by
  unfold register
  split
  · exact spares_of_publications rfl rfl
  next handle after _ =>
    have hadded := client.add_spares after handle
    split
    next hadd => rwa [hadd] at hadded
    next hadd => rwa [hadd] at hadded

theorem remove_spares (client : Client) (store : Store) (handle : Handle) :
    client.Spares (client.remove store handle).2.1 := by
  unfold remove
  split
  · exact spares_of_publications rfl rfl
  next publication _ =>
    refine spares_of_found rfl fun topic later hlater => Or.inr ?_
    rw [publication?_filter] at hlater
    split at hlater
    · cases hlater
    · exact ⟨later, hlater, rfl, le_rfl⟩

end Client

namespace Producer

/-- The faults that a producer meets at the reader of a topic, when it looks for bytes to publish and
    when it takes up a reply. -/
inductive Meets (producer : Producer) (incoming : Option Packet) (topic : String) : Fault → Prop
  | publishing {publication : Publication} {fault : Fault}
      (hfound : producer.client.publication? topic = some publication)
      (hreading : publication.halted = false)
      (hfault : (producer.store.onCursor publication.handle fun topic dir cursor =>
        cursor.nextRegion topic dir producer.client.settings.chunkSize).1 = .error fault) :
      Meets producer incoming topic fault
  | acknowledged {publication : Publication} {length : Nat} {fault : Fault}
      (hwaiting : producer.client.outstanding? topic = some (publication, length))
      (hfault : (producer.store.onCursor publication.handle fun topic dir cursor =>
        cursor.consume topic dir length).1 = .error fault) :
      Meets producer incoming topic fault
  | reset {publication : Publication} {length place : Nat} {fault : Fault}
      (hwaiting : producer.client.outstanding? topic = some (publication, length))
      (hincoming : incoming = some (.reset (Utf8.encode topic) place))
      (hfault : (producer.store.seek publication.handle place).1 = .error fault) :
      Meets producer incoming topic fault

/-- A producer meets a fatal fault at the reader of a topic. -/
def Fails (producer : Producer) (incoming : Option Packet) (topic : String) : Prop :=
  ∃ fault, producer.Meets incoming topic fault ∧ fault.isFatal = true

variable {producer after : Producer} {incoming : Option Packet} {topic : String}

/-- What a producer meets is a matter of its store, its publications and its settings. -/
theorem Fails.of_publications (hfails : after.Fails incoming topic)
    (hstore : after.store = producer.store)
    (hpublications : after.client.publications = producer.client.publications)
    (hsettings : after.client.settings = producer.client.settings) :
    producer.Fails incoming topic := by
  obtain ⟨fault, hmeets, hfatal⟩ := hfails
  have hsame := Client.publication?_congr hpublications topic
  have hwaits : after.client.outstanding? topic = producer.client.outstanding? topic := by
    rw [Client.outstanding?, hsame, Client.outstanding?]
  refine ⟨fault, ?_, hfatal⟩
  cases hmeets with
  | publishing hfound hreading hfault =>
    rw [hstore, hsettings] at hfault
    exact .publishing (hsame.symm.trans hfound) hreading hfault
  | acknowledged hwaiting hfault =>
    rw [hstore] at hfault
    exact .acknowledged (hwaits.symm.trans hwaiting) hfault
  | reset hwaiting hincoming hfault =>
    rw [hstore] at hfault
    exact .reset (hwaits.symm.trans hwaiting) hincoming hfault

theorem nextPublish_givesUp (producer : Producer) (topic : String) (moment : Moment) :
    producer.client.GivesUp (producer.Fails incoming)
      (producer.nextPublish topic moment).2.client := by
  have hself : producer.client.Spares producer.client := Client.spares_of_publications rfl rfl
  unfold nextPublish
  cases hfound : producer.client.publication? topic with
  | none => exact hself.givesUp
  | some publication =>
    dsimp only
    split
    · exact hself.givesUp
    next hidle =>
      simp only [Bool.or_eq_true, not_or, Bool.not_eq_true] at hidle
      have hcleared : producer.client.Spares (producer.client.modify topic fun publication =>
          { publication with retryAt := none }) := Client.spares_modify fun _ => ⟨rfl, rfl, le_rfl⟩
      split
      next fault _ hcursor =>
        refine hcleared.trans_givesUp (Client.cursorFailed_givesUp moment fun hfatal => ?_)
        exact ⟨fault, .publishing hfound hidle.1.1 (congrArg Prod.fst hcursor), hfatal⟩
      · exact hcleared.givesUp
      · exact (hcleared.trans (Client.spares_modify (by simp))).givesUp

/-- A topic with something to publish is not given up. -/
theorem nextPublish_spares {moment : Moment} {region : Region}
    (hnext : producer.nextPublish topic moment = (some region, after)) :
    producer.client.Spares after.client := by
  unfold nextPublish at hnext
  split at hnext
  · cases hnext
  · split at hnext
    · cases hnext
    · dsimp only at hnext
      split at hnext
      · cases hnext
      · cases hnext
      · obtain ⟨-, rfl⟩ := Prod.mk.inj hnext
        exact (Client.spares_modify (by simp)).trans (Client.spares_modify (by simp))

/-- A read that failed gives its topic up only where no attempt is left. -/
theorem finishRead_givesUp {Cause : String → Prop} (producer : Producer) (topic : String)
    (moment : Moment) (region : Region) (outcome : Except IoFault Bytes) :
    producer.client.GivesUp Cause (producer.finishRead topic moment region outcome).2.client := by
  unfold finishRead
  cases outcome with
  | error fault =>
    exact (Client.clearOutstanding_spares _ topic).trans_givesUp
      (Client.scheduleRetry_givesUp _ topic moment)
  | ok data =>
    dsimp only
    split <;> exact (Client.spares_of_publications rfl rfl).givesUp

theorem publish_givesUp (producer : Producer) (topic : String) (moment : Moment) :
    producer.client.GivesUp (producer.Fails incoming) (producer.publish topic moment).2.client := by
  have hnext : producer.client.GivesUp (producer.Fails incoming) _ :=
    producer.nextPublish_givesUp topic moment
  unfold publish
  split
  next heq => rwa [heq] at hnext
  next heq =>
    exact (nextPublish_spares heq).trans_givesUp (finishRead_givesUp _ topic moment _ _)

theorem acknowledge_givesUp (producer : Producer) (topic : String) (moment : Moment) :
    producer.client.GivesUp (producer.Fails incoming) (producer.acknowledge topic moment).2.client := by
  have hself : producer.client.Spares producer.client := Client.spares_of_publications rfl rfl
  unfold acknowledge
  cases hwaiting : producer.client.outstanding? topic with
  | none => exact hself.givesUp
  | some waiting =>
    obtain ⟨publication, length⟩ := waiting
    dsimp only
    split
    · exact hself.givesUp
    · have hcounted : producer.client.Spares { producer.client with
          stats := { producer.client.stats with acks := producer.client.stats.acks + 1 } } :=
        Client.spares_of_publications rfl rfl
      have hcleared := hcounted.trans (@Client.spares_modify _ topic
        (fun publication => { publication with outstanding := none, failures := 0 }) (by simp))
      dsimp only
      split
      · exact (hcleared.trans (Client.spares_modify (by simp))).givesUp
      next fault hfault =>
        refine hcleared.trans_givesUp (Client.cursorFailed_givesUp moment fun hfatal => ?_)
        exact ⟨fault, .acknowledged hwaiting hfault, hfatal⟩

theorem reset_givesUp (producer : Producer) {offset : Nat}
    (hincoming : incoming = some (.reset (Utf8.encode topic) offset)) (moment : Moment) :
    producer.client.GivesUp (producer.Fails incoming)
      (producer.reset topic offset moment).2.client := by
  unfold reset
  cases hwaiting : producer.client.outstanding? topic with
  | none => exact (Client.spares_of_publications rfl rfl).givesUp
  | some waiting =>
    obtain ⟨publication, length⟩ := waiting
    have hcounted : producer.client.Spares { producer.client with
        stats := { producer.client.stats with resets := producer.client.stats.resets + 1 } } :=
      Client.spares_of_publications rfl rfl
    dsimp only
    split
    · exact hcounted.givesUp
    · have hcleared := hcounted.trans (Client.clearOutstanding_spares _ topic)
      dsimp only
      split
      · exact hcleared.givesUp
      next fault hfault =>
        refine hcleared.trans_givesUp (Client.cursorFailed_givesUp moment fun hfatal => ?_)
        exact ⟨fault, .reset hwaiting hincoming hfault, hfatal⟩

theorem refuse_givesUp (producer : Producer) (topic : String) (moment : Moment) :
    producer.client.GivesUp (producer.Fails incoming) (producer.refuse topic moment).client := by
  unfold refuse
  split
  · exact (Client.spares_of_publications rfl rfl).givesUp
  · have hcounted : producer.client.Spares { producer.client with
        stats := { producer.client.stats with failures := producer.client.stats.failures + 1 } } :=
      Client.spares_of_publications rfl rfl
    exact (hcounted.trans (Client.clearOutstanding_spares _ topic)).trans_givesUp
      (Client.scheduleRetry_givesUp _ topic moment)

theorem handleReply_givesUp (producer : Producer) (packet : Packet) (moment : Moment) :
    producer.client.GivesUp (producer.Fails (some packet))
      (producer.handleReply packet moment).2.client := by
  have hself : producer.client.Spares producer.client := Client.spares_of_publications rfl rfl
  unfold handleReply
  cases hdecode : Utf8.decode? packet.topic with
  | none => exact hself.givesUp
  | some topic =>
    cases packet with
    | publish offset name data => exact hself.givesUp
    | ack name => exact producer.acknowledge_givesUp topic moment
    | reset name place =>
      obtain rfl : Utf8.encode topic = name := Utf8.encode_of_decode? hdecode
      exact producer.reset_givesUp rfl moment
    | failure name => exact producer.refuse_givesUp topic moment

theorem change_spares {α : Type} (producer : Producer) (work : Store → α × Store) :
    producer.client.Spares (producer.change work).2.client := by
  obtain ⟨hpublications, hsettings⟩ := Client.publications_notice producer.client
    ((work producer.store).2.events.drop producer.store.events.length)
  exact Client.spares_of_publications hpublications hsettings

theorem register_spares (producer : Producer) (topic : String) (offset : Nat) :
    producer.client.Spares (producer.register topic offset).2.client := by
  unfold register
  split
  · exact Client.spares_of_publications rfl rfl
  next number store _ => exact producer.client.register_spares store number offset

theorem enlist_spares (producer : Producer) (topic name : String) (offset : Nat) :
    producer.client.Spares (producer.enlist topic name offset).client := by
  unfold enlist
  split
  · exact Client.spares_of_publications rfl rfl
  · split
    · exact Client.spares_of_publications rfl rfl
    next handle store _ => exact producer.client.add_spares store handle

end Producer

namespace System

variable {system : System}

/-- The packet that arrives next at the client. -/
def incoming? (system : System) : Option Packet :=
  match system.link, system.replies with
  | some reader, bytes :: _ =>
    match (reader.feed bytes).nextBody with
    | (.ok (some body), _) => (FrameReader.packetOf body).toOption
    | _ => none
  | _, _ => none

theorem lose_spares (system : System) :
    system.producer.client.Spares system.lose.producer.client :=
  Client.spares_disconnected system.producer.client

theorem connect_spares (system : System) :
    system.producer.client.Spares system.connect.producer.client := by
  unfold connect
  split <;> exact Client.spares_of_publications rfl rfl

theorem serve_spares (system : System) (time : Nat) :
    system.producer.client.Spares (system.serve time).producer.client := by
  unfold serve
  split <;> exact Client.spares_of_publications rfl rfl

theorem publish_givesUp {incoming : Option Packet} (system : System) (topic : String) (moment : Moment) :
    system.producer.client.GivesUp (system.producer.Fails incoming)
      (system.publish topic moment).producer.client := by
  unfold publish
  split
  · exact (Client.spares_of_publications rfl rfl).givesUp
  · have hpublish : system.producer.client.GivesUp (system.producer.Fails incoming) _ :=
      system.producer.publish_givesUp topic moment
    rcases heq : system.producer.publish topic moment with ⟨fault | _ | frame, after⟩
    · rw [heq] at hpublish
      exact hpublish.trans_spares (Client.spares_disconnected _)
    · rwa [heq] at hpublish
    · rwa [heq] at hpublish

theorem deliver_givesUp (system : System) (moment : Moment) :
    system.producer.client.GivesUp (system.producer.Fails system.incoming?)
      (system.deliver moment).producer.client := by
  have hself : system.producer.client.Spares system.producer.client :=
    Client.spares_of_publications rfl rfl
  unfold deliver
  cases hlink : system.link with
  | none => exact hself.givesUp
  | some reader =>
    cases hreplies : system.replies with
    | nil => exact hself.givesUp
    | cons bytes rest =>
      dsimp only
      rcases hbody : (reader.feed bytes).nextBody with ⟨fault | _ | body, moved⟩
      · exact system.lose_spares.givesUp
      · exact hself.givesUp
      · dsimp only
        cases hpacket : FrameReader.packetOf body with
        | error fault => exact system.lose_spares.givesUp
        | ok packet =>
          have hincoming : system.incoming? = some packet := by
            simp only [incoming?, hlink, hreplies, hbody, hpacket, Except.toOption]
          have hreply := system.producer.handleReply_givesUp packet moment
          rw [← hincoming] at hreply
          dsimp only
          rcases heq : system.producer.handleReply packet moment with ⟨fault | _, after⟩
          · rw [heq] at hreply
            exact hreply.trans_spares (Client.spares_disconnected _)
          · rwa [heq] at hreply

/-- Whatever happens to a system, a topic is given up only where its reader meets a fatal fault, or
    where its failures used up its attempts. -/
theorem perform_givesUp (system : System) (action : Action) :
    system.producer.client.GivesUp (system.producer.Fails system.incoming?)
      (system.perform action).producer.client := by
  cases action with
  | append topic data rollSize now =>
    exact (system.producer.change_spares fun store =>
      store.append topic data rollSize now).givesUp
  | cleanup topic retain now =>
    exact (system.producer.change_spares fun store =>
      store.onTopic topic (·.cleanup retain now)).givesUp
  | cleanupAll topic retain external now =>
    exact (system.producer.change_spares fun store =>
      store.onTopic topic (·.cleanupAll retain external now)).givesUp
  | register topic offset => exact (system.producer.register_spares topic offset).givesUp
  | enlist topic name offset => exact (system.producer.enlist_spares topic name offset).givesUp
  | remove handle => exact (system.producer.client.remove_spares system.producer.store handle).givesUp
  | wake topic =>
    obtain ⟨hpublications, hsettings⟩ := system.producer.client.publications_wake topic
    exact (Client.spares_of_publications hpublications hsettings).givesUp
  | fire time =>
    obtain ⟨hpublications, hsettings⟩ := system.producer.client.publications_fireThose _
    exact (Client.spares_of_publications hpublications hsettings).givesUp
  | publish topic moment => exact system.publish_givesUp topic moment
  | publishNext moment =>
    unfold perform
    cases htake : system.producer.client.take with
    | none => exact (Client.spares_of_publications rfl rfl).givesUp
    | some taken =>
      obtain ⟨hpublications, hsettings⟩ := Client.publications_take htake
      refine (Client.spares_of_publications hpublications hsettings).trans_givesUp fun topic hhalts => ?_
      rcases (system.setClient taken.2).publish_givesUp taken.1 moment topic hhalts with
        hbefore | hspent | hfails
      · exact Or.inl hbefore
      · exact Or.inr (Or.inl hspent)
      · exact Or.inr (Or.inr (hfails.of_publications rfl hpublications hsettings))
  | serve time => exact (system.serve_spares time).givesUp
  | deliver moment => exact system.deliver_givesUp moment
  | disconnect => exact system.lose_spares.givesUp
  | connect => exact system.connect_spares.givesUp
  | restart rollSize => exact system.lose_spares.givesUp

end System

end ReplicatedLog
