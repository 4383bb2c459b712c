import ReplicatedLog.Proofs.Disk.Checkpoint
import ReplicatedLog.Proofs.Replication.Simulation

namespace ReplicatedLog

/-- A reply takes a topic to where it claims that the service is, as far as the log is there. -/
theorem Packet.resumes_of_claims {reply : Packet} {first last offset length place : Nat}
    (hclaims : reply.claims offset length = some place) (hfirst : first ≤ place)
    (hlast : place ≤ last) : reply.resumes first last offset length = place := by
  cases reply with
  | publish => cases hclaims
  | ack name => exact Option.some.inj hclaims
  | reset name target =>
    obtain rfl := Option.some.inj hclaims
    exact if_pos ⟨hfirst, hlast⟩
  | failure name => cases hclaims

theorem Packet.resumes_of_silent {reply : Packet} {first last offset length : Nat}
    (hclaims : reply.claims offset length = none) :
    reply.resumes first last offset length = offset := by
  cases reply with
  | publish => rfl
  | ack name => cases hclaims
  | reset name target => cases hclaims
  | failure name => rfl

namespace Producer

/-- The offset that the replication of a topic has reached. -/
def reached? (producer : Producer) (topic : String) : Option Nat :=
  (producer.client.publication? topic).map fun publication =>
    (Client.offsets publication producer.store).1

/-- Neither the sinks nor the places of a producer changed. -/
structure Rests (producer after : Producer) : Prop where
  sinks : after.sinks = producer.sinks
  reached : ∀ topic, topic.utf8ByteSize ≤ maxNameLength →
    after.reached? topic = producer.reached? topic

/-- The one sink of a producer keeps checkpoints, and each topic is where its checkpoint says. -/
structure Marked (producer : Producer) (topics : List String) : Prop where
  shelf : ∃ dir, producer.sinks = [.checkpoints dir] ∧ Checkpoint.Shelf dir
  marks : ∀ topic ∈ topics, ∃ mark, Checkpoint.load producer.checkpoints topic = .ok mark ∧
    producer.reached? topic = some (mark.getD 0)

variable {producer middle after : Producer} {topic other : String} {stored later : StoredLog}
  {history more : Bytes} {standing place : Option Standing}

theorem Shows.reached?_eq (hshows : producer.Shows topic stored history standing)
    (hcoherent : producer.store.Coherent) :
    producer.reached? topic = standing.map (·.offset) := by
  have hstands := hshows.stands
  unfold reached?
  generalize producer.client.publication? topic = publication at hstands
  cases hstands with
  | absent => rfl
  | present hopen htracked hwaits =>
    rw [Option.map_some, Client.offsets_eq hcoherent hopen hshows.current htracked.found,
      Option.map_some]

theorem Turns.reached?_of_ne (hturns : producer.Turns topic later more standing after)
    (hcoherent : producer.store.Coherent) (hne : other ≠ topic)
    (hshort : other.utf8ByteSize ≤ maxNameLength)
    (hshows : producer.Shows other stored history place) :
    after.reached? other = producer.reached? other := by
  obtain ⟨same, -, hafter⟩ := hturns.shows_of_ne hne hshort hshows
  rw [hshows.reached?_eq hcoherent, hafter.reached?_eq hturns.updates.coherent]

namespace Rests

theorem refl (producer : Producer) : producer.Rests producer :=
  ⟨rfl, fun _ _ => rfl⟩

theorem trans (hfirst : producer.Rests middle) (hsecond : middle.Rests after) :
    producer.Rests after where
  sinks := hsecond.sinks.trans hfirst.sinks
  reached topic hshort := (hsecond.reached topic hshort).trans (hfirst.reached topic hshort)

/-- Only the publications of a client matter here. -/
theorem of_publications_eq {client : Client}
    (hpublications : client.publications = producer.client.publications) :
    producer.Rests { producer with client } where
  sinks := rfl
  reached topic _ := by simp only [reached?, Client.publication?_congr hpublications]

/-- The loss of a connection moves no place. -/
theorem disconnected (producer : Producer) :
    producer.Rests { producer with client := producer.client.disconnected } where
  sinks := rfl
  reached topic _ := by
    simp only [reached?, Client.publication?_disconnected, Option.map_map]
    rfl

theorem marked {topics : List String} (hrests : producer.Rests after)
    (hshort : ∀ topic ∈ topics, topic.utf8ByteSize ≤ maxNameLength)
    (hmarked : producer.Marked topics) : after.Marked topics where
  shelf := hrests.sinks ▸ hmarked.shelf
  marks topic hmem := by
    rw [checkpoints, hrests.sinks, hrests.reached topic (hshort topic hmem)]
    exact hmarked.marks topic hmem

end Rests

/-- One topic was moved together with its checkpoint. -/
theorem Marked.moved {topics : List String} {dir : Directory} {mark : Option Nat}
    (hmarked : producer.Marked topics) (hstorable : ∀ topic ∈ topics, Checkpoint.Storable topic)
    (hsinks : after.sinks = [.checkpoints dir]) (hshelf : Checkpoint.Shelf dir)
    (hload : Checkpoint.load dir topic = .ok mark)
    (hothers : ∀ other, other ≠ topic → Checkpoint.Storable other →
      Checkpoint.load dir other = Checkpoint.load producer.checkpoints other)
    (hreached : ∀ other, other.utf8ByteSize ≤ maxNameLength → after.reached? other =
      if other = topic then some (mark.getD 0) else producer.reached? other) :
    after.Marked topics where
  shelf := ⟨dir, hsinks, hshelf⟩
  marks other hmem := by
    have hother := hstorable other hmem
    have hcheckpoints : after.checkpoints = dir := by
      rw [checkpoints, hsinks]
      rfl
    rw [hcheckpoints, hreached other hother.topic_short]
    by_cases hname : other = topic
    · rw [if_pos hname, hname]
      exact ⟨mark, hload, rfl⟩
    · rw [if_neg hname, hothers other hname hother]
      exact hmarked.marks other hmem

/-- What a reply claims can be stored as the checkpoint of its topic, which is then where the topic
    goes on. -/
theorem Marked.exists_stored {topics : List String} {reply : Packet} {first last offset length : Nat}
    (hmarked : producer.Marked topics) (hstorable : ∀ topic ∈ topics, Checkpoint.Storable topic)
    (hmem : topic ∈ topics) (hreached : producer.reached? topic = some offset)
    (hclaims : ∀ place, reply.claims offset length = some place → first ≤ place ∧ place ≤ last)
    (hfits : last ≤ Decimal.maxValue) (now : Instant) :
    ∃ dir mark, (∀ place, reply.claims offset length = some place →
        Sink.storeAll topic place now producer.sinks = (.ok (), [.checkpoints dir])) ∧
      (reply.claims offset length = none → [.checkpoints dir] = producer.sinks) ∧
      Checkpoint.Shelf dir ∧ Checkpoint.load dir topic = .ok mark ∧
      mark.getD 0 = reply.resumes first last offset length ∧
      ∀ other, other ≠ topic → Checkpoint.Storable other →
        Checkpoint.load dir other = Checkpoint.load producer.checkpoints other := by
  obtain ⟨dir, hsinks, hshelf⟩ := hmarked.shelf
  have hcheckpoints : producer.checkpoints = dir := by
    rw [checkpoints, hsinks]
    rfl
  rw [hsinks, hcheckpoints]
  cases hclaim : reply.claims offset length with
  | none =>
    obtain ⟨mark, hload, hmark⟩ := hmarked.marks topic hmem
    rw [hreached, Option.some.injEq] at hmark
    refine ⟨dir, mark, nofun, fun _ => rfl, hshelf, hcheckpoints ▸ hload, ?_, fun _ _ _ => rfl⟩
    rw [← hmark, Packet.resumes_of_silent hclaim]
  | some place =>
    obtain ⟨hfirst, hlast⟩ := hclaims place hclaim
    obtain ⟨after, hstore, hafter, hload, hothers⟩ :=
      hshelf.store_spec (hstorable topic hmem) (hlast.trans hfits) now
    refine ⟨after, some place, ?_, nofun, hafter, hload, ?_,
      fun other hne hother => hothers other hne hother.loadable⟩
    · rintro _ ⟨⟩
      simp only [Sink.storeAll, Sink.store, hstore]
    · exact (Packet.resumes_of_claims hclaim hfirst hlast).symm

/-- A reply to a publish that the sinks do not refuse moves the topic. -/
theorem TakesUp.exists_turns {reply : Packet} {α : Type} {result other : α} {offset length : Nat}
    (htakes : producer.TakesUp topic stored history reply result (some ⟨offset, some length⟩)
      (.ok other, after)) :
    ∃ later, producer.Turns topic later history
      (some ⟨reply.resumes stored.log.firstOffset history.length offset length, none⟩) after := by
  cases htakes with
  | aside hidle => cases hidle
  | settled hturns => exact ⟨_, hturns⟩

/-- A reply that is taken up has the sinks told of what it claims. -/
theorem handleReply_of_stored {reply : Packet} {publication : Publication} {length : Nat}
    {sinks : List Sink} (hreply : reply.IsReply) (hname : reply.topic = Utf8.encode topic)
    (hwaiting : producer.client.outstanding? topic = some (publication, length)) (moment : Moment)
    (hstored : ∀ place,
      reply.claims (Client.offsets publication producer.store).1 length = some place →
        Sink.storeAll topic place (.ofNanos moment.time) producer.sinks = (.ok (), sinks))
    (hnone : reply.claims (Client.offsets publication producer.store).1 length = none →
      sinks = producer.sinks) :
    (producer.handleReply reply moment).1 = .ok topic ∧
      (producer.handleReply reply moment).2.sinks = sinks := by
  unfold handleReply
  rw [hname, Utf8.decode?_encode]
  cases reply with
  | publish offset name data => exact hreply.elim
  | ack name =>
    have hstore := hstored _ rfl
    simp [acknowledge, hwaiting, hstore, Except.map]
  | reset name place =>
    have hstore := hstored _ rfl
    simp [reset, hwaiting, hstore, Except.map]
  | failure name =>
    obtain rfl := hnone rfl
    simp [refuse, hwaiting]

end Producer

/-- The service asks for nothing that it has. -/
theorem Exchange.Anchored.le_claims {exchange : Exchange} {reply : Packet} {back : List Packet}
    {offset length place : Nat} (hanchored : exchange.Anchored)
    (hflight : exchange.flight = reply :: back)
    (hstanding : exchange.standing = some ⟨offset, some length⟩)
    (hclaims : reply.claims offset length = some place) : offset ≤ place := by
  cases reply with
  | publish => cases hclaims
  | ack name =>
    obtain rfl := Option.some.inj hclaims
    exact Nat.le_add_right _ _
  | reset name target =>
    obtain rfl := Option.some.inj hclaims
    exact hanchored.resets offset length name _ hstanding (hflight ▸ List.mem_cons_self)
  | failure name => cases hclaims

namespace System

variable {system : System} {publishes replies : List Packet} {exchanges : String → Exchange}
  {topic : String} {later : StoredLog} {more : Bytes} {standing : Option Standing}
  {after : Producer} {topics : List String}

theorem Reflects.reached?_eq (hreflects : system.Reflects publishes replies exchanges)
    (hshort : topic.utf8ByteSize ≤ maxNameLength) :
    system.producer.reached? topic = (exchanges topic).standing.map (·.offset) := by
  obtain ⟨⟨stored, hstored, -⟩, -, -, -⟩ := hreflects.shows topic hshort
  exact hstored.reached?_eq hreflects.sound.producer

/-- A turn to one topic moves the place of that one only. -/
theorem Reflects.reached?_of_turns (hreflects : system.Reflects publishes replies exchanges)
    (hturns : system.producer.Turns topic later more standing after) {other : String}
    (hshort : other.utf8ByteSize ≤ maxNameLength) :
    after.reached? other =
      if other = topic then standing.map (·.offset) else system.producer.reached? other := by
  by_cases hname : other = topic
  · subst hname
    rw [if_pos rfl, hturns.shows.reached?_eq hturns.updates.coherent]
  · obtain ⟨⟨stored, hstored, -⟩, -, -, -⟩ := hreflects.shows other hshort
    rw [if_neg hname, hturns.reached?_of_ne hreflects.sound.producer hname hshort hstored]

/-- A turn that leaves the place where it was. -/
theorem Reflects.rests_of_turns (hreflects : system.Reflects publishes replies exchanges)
    (hturns : system.producer.Turns topic later more standing after)
    (hplace : standing.map (·.offset) = (exchanges topic).standing.map (·.offset))
    (hsinks : after.sinks = system.producer.sinks) : system.producer.Rests after where
  sinks := hsinks
  reached other hshort := by
    rw [hreflects.reached?_of_turns hturns hshort]
    split
    next hname => rw [hname, hplace, ← hreflects.reached?_eq (hname ▸ hshort)]
    · rfl

theorem rests_sends {result : Except WireFault (Option Bytes) × Producer}
    (hrests : system.producer.Rests result.2) :
    system.producer.Rests (system.sends result).producer := by
  obtain ⟨fault | _ | frame, producer⟩ := result
  · exact hrests.trans (.disconnected producer)
  · exact hrests
  · exact hrests

/-- What is published waits where the topic was. -/
theorem Reflects.rests_publish (hreflects : system.Reflects publishes replies exchanges)
    (topic : String) (moment : Moment) :
    system.producer.Rests (system.publish topic moment).producer := by
  unfold System.publish
  split
  · exact .refl _
  · refine rests_sends ?_
    have hsinks := system.producer.sinks_publish topic moment
    by_cases hshort : topic.utf8ByteSize ≤ maxNameLength
    · obtain ⟨⟨stored, hstored, -⟩, -, -, -⟩ := hreflects.shows topic hshort
      have hspec := hstored.publish_spec hreflects.sound.producer moment
      rcases hpublish : system.producer.publish topic moment with ⟨outcome, producer⟩
      rw [hpublish] at hspec hsinks
      generalize hplace : (exchanges topic).standing = standing at hspec
      cases hspec with
      | nothing hturns _ => exact hreflects.rests_of_turns hturns (by rw [hplace]) hsinks
      | piece hturns _ _ _ _ => exact hreflects.rests_of_turns hturns (by rw [hplace]; rfl) hsinks
    · cases hpublication : system.producer.client.publication? topic with
      | some publication =>
        exact absurd (hreflects.sound.short topic publication hpublication) hshort
      | none =>
        rw [Producer.publish_of_none hpublication]
        exact .refl _

/-- A cleanup of a topic, whichever it is, moves no place. -/
theorem Reflects.rests_clean (hreflects : system.Reflects publishes replies exchanges)
    (hshort : topic.utf8ByteSize ≤ maxNameLength) {α : Type}
    {work : StoredLog → Except Fault α × StoredLog}
    (hwork : ∀ stored history, stored.Keeps history → (work stored).2.Keeps history ∧
      (∃ gate, gate ≤ stored.log.gate ∧ stored.log.Cleaned gate (work stored).2.log) ∧
      (work stored).2.dir.nextId = stored.dir.nextId) :
    system.producer.Rests
      (system.producer.change fun store => store.onTopic topic work).2 := by
  obtain ⟨⟨stored, hstored, -⟩, -, -, -⟩ := hreflects.shows topic hshort
  obtain ⟨hkeeps, ⟨gate, hgate, hcleaned⟩, hid⟩ := hwork stored _ hstored.keeps
  obtain ⟨later, hturns, -⟩ :=
    hstored.clean_spec hreflects.sound.producer hshort hkeeps hcleaned hgate hid
  exact hreflects.rests_of_turns hturns rfl rfl

/-- What happens between two starts of the client: its topics stay registered, and nothing is logged
    in others. -/
def Action.Within (topics : List String) : Action → Prop
  | .append topic .. | .cleanup topic .. | .cleanupAll topic .. => topic ∈ topics
  | .register .. | .enlist .. | .remove _ => False
  | _ => True

/-- Only replies move places. -/
theorem Reflects.rests_perform (hreflects : system.Reflects publishes replies exchanges)
    {action : Action} (hfits : system.Fits action) (hwithin : action.Within topics)
    (hquiet : ∀ moment, action ≠ .deliver moment) :
    system.producer.Rests (system.perform action).producer := by
  cases action with
  | append topic data rollSize now =>
    obtain ⟨hshort, hnow, hlength⟩ := hfits
    obtain ⟨⟨stored, hstored, -⟩, -, -, -⟩ := hreflects.shows topic hshort
    have hfits : ((exchanges topic).history ++ data).length ≤ Decimal.maxValue := by
      rw [List.length_append, hstored.keeps.1]
      exact hlength stored hstored.current
    obtain ⟨later, more, hturns, -⟩ := hstored.append_spec hreflects.sound.producer hshort data
      rollSize hnow hfits
    exact hreflects.rests_of_turns hturns rfl rfl
  | cleanup topic retain now =>
    refine hreflects.rests_clean hfits fun stored history hkeeps => ?_
    obtain ⟨hafter, hcleaned, hid⟩ := hkeeps.cleanup retain now
    exact ⟨hafter, ⟨_, le_rfl, hcleaned⟩, hid⟩
  | cleanupAll topic retain external now =>
    refine hreflects.rests_clean hfits fun stored history hkeeps => ?_
    obtain ⟨hafter, hcleaned, hid⟩ := hkeeps.cleanupAll retain external now
    exact ⟨hafter, ⟨_, min_le_left _ _, hcleaned⟩, hid⟩
  | register | enlist | remove => exact hwithin.elim
  | wake topic => exact .of_publications_eq (Client.publications_wake _ topic).1
  | fire time => exact .of_publications_eq (Client.publications_fireThose _ _).1
  | publish topic moment => exact hreflects.rests_publish topic moment
  | publishNext moment =>
    simp only [System.perform]
    cases htake : system.producer.client.take with
    | none => exact .refl _
    | some taken =>
      have hpublications := (Client.publications_take htake).1
      have hrests : system.producer.Rests (system.setClient taken.2).producer :=
        .of_publications_eq hpublications
      exact hrests.trans ((hreflects.setClient hpublications).rests_publish taken.1 moment)
  | serve time =>
    simp only [System.perform, System.serve]
    split <;> exact .refl _
  | deliver moment => exact absurd rfl (hquiet moment)
  | disconnect => exact .disconnected _
  | connect =>
    simp only [System.perform, System.connect]
    split
    · exact .refl _
    · exact .of_publications_eq rfl
  | restart rollSize => exact .disconnected _

/-- A reply that moves the place of a topic moves its checkpoint there too. -/
theorem Reflects.marked_takes {reply : Packet} {back : List Packet}
    (hreflects : system.Reflects publishes (reply :: back) exchanges) (hreply : reply.Replies topic)
    (hanchored : (exchanges topic).Credited ∧ (exchanges topic).Anchored)
    (hunlisted : topic ∉ topics → (exchanges topic).standing = none)
    (hstorable : ∀ topic ∈ topics, Checkpoint.Storable topic)
    (hmarked : system.producer.Marked topics) (moment : Moment) (rest : List Bytes) :
    (system.takes {} rest (system.producer.handleReply reply moment)).producer.Marked topics := by
  obtain ⟨⟨stored, hstored, hfirst⟩, -, habout, -⟩ := hreflects.shows topic hreply.short
  rw [List.cons_append, Packet.about_cons_self hreply.named] at habout
  have hspec := hstored.handleReply_spec hreflects.sound.producer hreply.isReply hreply.named moment
  rcases hstored.outstanding_cases with ⟨-, hidle⟩ | ⟨publication, cursor, length, hfound, hwaiting,
    -, -, hopen, htracked, -, hplace⟩
  · generalize (exchanges topic).standing = standing at hspec hidle
    generalize system.producer.handleReply reply moment = result at hspec
    cases hspec with
    | aside => exact hmarked
    | refused | settled => cases hidle
  · have hmem : topic ∈ topics := by
      by_contra hout
      rw [hunlisted hout] at hplace
      cases hplace
    have hoffset : (Client.offsets publication system.producer.store).1 = cursor.offset := by
      rw [Client.offsets_eq hreflects.sound.producer hopen hstored.current htracked.found]
    obtain ⟨hlength, parts, hlaid, -⟩ := id hstored.keeps
    have hfits : (exchanges topic).history.length ≤ Decimal.maxValue := hlength ▸ hlaid.bounded
    have hreceived := (hreflects.faithful topic hreply.short).received.length_le
    have hstart := hanchored.2.start _ _ hplace
    have hreached : system.producer.reached? topic = some cursor.offset := by
      rw [hreflects.reached?_eq hreply.short, hplace]
      rfl
    have hclaims : ∀ place, reply.claims cursor.offset length = some place →
        stored.log.firstOffset ≤ place ∧ place ≤ (exchanges topic).history.length := by
      intro place hclaim
      have hbehind := hanchored.2.le_claims habout hplace hclaim
      have hahead := (hanchored.1.claims_le habout hreply.isReply hplace).2 place hclaim
      omega
    obtain ⟨dir, mark, hstores, hsilent, hshelf, hload, hmark, hothers⟩ :=
      hmarked.exists_stored hstorable hmem hreached hclaims hfits (.ofNanos moment.time)
    rw [← hoffset] at hstores hsilent
    obtain ⟨hresult, hsinks⟩ := Producer.handleReply_of_stored hreply.isReply hreply.named hwaiting
      moment hstores hsilent
    rw [hplace] at hspec
    rcases hhandle : system.producer.handleReply reply moment with ⟨outcome, after⟩
    rw [hhandle] at hspec hresult hsinks
    obtain rfl : outcome = .ok topic := hresult
    obtain ⟨later, hturns⟩ := hspec.exists_turns
    refine hmarked.moved hstorable hsinks hshelf hload hothers fun other hshort => ?_
    change after.reached? other = _
    rw [hreflects.reached?_of_turns hturns hshort, hmark]
    rfl

/-- A reply that moves the place of a topic moves its checkpoint there too. -/
theorem Reflects.marked_deliver (hreflects : system.Reflects publishes replies exchanges)
    (hanchored : ∀ topic, topic.utf8ByteSize ≤ maxNameLength →
      (exchanges topic).Credited ∧ (exchanges topic).Anchored)
    (hunlisted : ∀ topic ∉ topics, topic.utf8ByteSize ≤ maxNameLength →
      (exchanges topic).standing = none)
    (hstorable : ∀ topic ∈ topics, Checkpoint.Storable topic)
    (hmarked : system.producer.Marked topics) (moment : Moment) :
    (system.deliver moment).producer.Marked topics := by
  have hflight := hreflects.flight
  rcases hreflects.sound.linked with ⟨hlink, -, -⟩ | ⟨hlink, -⟩
  · simp only [System.deliver, hlink]
    exact hmarked
  · cases hreplies : system.replies with
    | nil =>
      simp only [System.deliver, hlink, hreplies]
      exact hmarked
    | cons bytes rest =>
      rw [hreplies] at hflight
      obtain ⟨reply, back, topic, rfl, hreply, hframe⟩ := hflight.exists_reply
      rw [deliver_of_linked hlink hreplies hreply.encodable hframe]
      exact hreflects.marked_takes hreply (hanchored topic hreply.short)
        (fun hout => hunlisted topic hout hreply.short) hstorable hmarked moment rest

end System

end ReplicatedLog
