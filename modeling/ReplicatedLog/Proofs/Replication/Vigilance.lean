import ReplicatedLog.Proofs.Replication.Attention
import ReplicatedLog.Proofs.Replication.ConnectionLoop

namespace ReplicatedLog

namespace Producer

variable {producer after : Producer} {topic : String} {stored later : StoredLog}
  {history more : Bytes} {standing place : Option Standing} {clock : Nat}
  {visits rest : String → Prop}

/-- A producer with a history of every topic, whose client hears of all that it replicates. -/
structure Grounded (producer : Producer) : Prop where
  coherent : producer.store.Coherent
  distinct : producer.client.Distinct
  short : ∀ topic publication, producer.client.publication? topic = some publication →
    topic.utf8ByteSize ≤ maxNameLength
  coalesced : producer.client.Coalesced
  shows : ∀ topic, topic.utf8ByteSize ≤ maxNameLength → ∃ stored history standing,
    producer.Shows topic stored history standing ∧
      (standing ≠ none → producer.store.Tells topic (.replicator producer.client.name))

/-- No topic of a producer needs a wake. -/
def Tends (producer : Producer) (clock : Nat) (visits : String → Prop) : Prop :=
  ∀ topic publication, producer.client.publication? topic = some publication →
    producer.client.Attends clock visits (producer.AtEnd topic) publication

theorem Turns.name_eq (hturns : producer.Turns topic later more place after) :
    after.client.name = producer.client.name :=
  congrArg SyncSettings.clientName hturns.touches.settings

theorem Grounded.turn (hgrounded : producer.Grounded) (hshort : topic.utf8ByteSize ≤ maxNameLength)
    (hturns : producer.Turns topic later more place after) (hminds : producer.Minds after)
    (htells : place ≠ none → after.store.Tells topic (.replicator after.client.name)) :
    after.Grounded where
  coherent := hturns.updates.coherent
  distinct := hturns.touches.distinct hgrounded.distinct
  short other publication hfound := by
    by_cases hother : other = topic
    · exact hother ▸ hshort
    · rw [hturns.touches.others other hother] at hfound
      exact hgrounded.short other publication hfound
  coalesced := hminds.client.coalesced hgrounded.coalesced
  shows other hname := by
    by_cases hother : other = topic
    · subst hother
      exact ⟨later, more, place, hturns.shows, htells⟩
    · obtain ⟨stored, history, standing, hshows, hheard⟩ := hgrounded.shows other hname
      obtain ⟨same, -, hsame⟩ := hturns.shows_of_ne hother hname hshows
      refine ⟨same, history, standing, hsame, fun hplace => ?_⟩
      rw [hturns.name_eq]
      exact (hheard hplace).carry hminds.store (hturns.updates.opened other)

/-- A topic that was turned to needs no wake if it is told so; the others need none as before. -/
theorem Tends.turn (htends : producer.Tends clock visits) (hgrounded : producer.Grounded)
    (hturns : producer.Turns topic later more place after) (hminds : producer.Minds after)
    (hvisits : ∀ other, other ≠ topic → visits other → rest other)
    (hown : ∀ publication, after.client.publication? topic = some publication →
      after.client.Attends clock rest (after.AtEnd topic) publication) :
    after.Tends clock rest := by
  intro other publication hfound
  by_cases hother : other = topic
  · subst hother
    exact hown publication hfound
  · rw [hturns.touches.others other hother] at hfound
    have hname := (Client.mem_of_publication? hfound).2
    refine (htends other publication hfound).mono hminds.client le_rfl ?_ fun hend => ?_
    · rw [hname]
      exact hvisits other hother
    · obtain ⟨stored, history, hshows⟩ := hend
      obtain ⟨same, -, hsame⟩ :=
        hturns.shows_of_ne hother (hgrounded.short other publication hfound) hshows
      exact ⟨same, history, hsame⟩

/-- A turn leaves the client hearing of what it replicated before. -/
theorem Grounded.turn_known (hgrounded : producer.Grounded)
    (hshort : topic.utf8ByteSize ≤ maxNameLength)
    (hheard : standing ≠ none → producer.store.Tells topic (.replicator producer.client.name))
    (hturns : producer.Turns topic later more place after) (hminds : producer.Minds after)
    (hplace : place ≠ none → standing ≠ none) : after.Grounded := by
  refine hgrounded.turn hshort hturns hminds fun hpresent => ?_
  rw [hturns.name_eq]
  exact (hheard (hplace hpresent)).carry hminds.store (hturns.updates.opened topic)

/-- Only the publications of the client and the logs matter, besides what is to be looked at. -/
theorem Grounded.congr (hgrounded : producer.Grounded) (hstore : after.store = producer.store)
    (hpublications : after.client.publications = producer.client.publications)
    (hsettings : after.client.settings = producer.client.settings)
    (hcoalesced : after.client.Coalesced) : after.Grounded where
  coherent := hstore ▸ hgrounded.coherent
  distinct := ((Client.Touches.refl producer.client "").congr hpublications hsettings).distinct
    hgrounded.distinct
  short topic publication hfound := by
    rw [Client.publication?_congr hpublications] at hfound
    exact hgrounded.short topic publication hfound
  coalesced := hcoalesced
  shows topic hshort := by
    obtain ⟨stored, history, standing, hshows, hheard⟩ := hgrounded.shows topic hshort
    refine ⟨stored, history, standing, hshows.congr hstore hpublications, fun hplace => ?_⟩
    rw [hstore, Client.name, hsettings]
    exact hheard hplace

theorem Tends.congr (htends : producer.Tends clock visits) (hstore : after.store = producer.store)
    (hpublications : after.client.publications = producer.client.publications) {later : Nat}
    (hattends : ∀ publication atEnd, publication ∈ producer.client.publications →
      producer.client.Attends clock visits atEnd publication →
        after.client.Attends later rest atEnd publication) : after.Tends later rest := by
  intro topic publication hfound
  rw [Client.publication?_congr hpublications] at hfound
  have hmem := (Client.mem_of_publication? hfound).1
  refine (hattends publication _ hmem (htends topic publication hfound)).mono (.refl _) le_rfl id ?_
  rintro ⟨stored, history, hshows⟩
  exact ⟨stored, history, hshows.congr hstore hpublications⟩

theorem Grounded.disconnected (hgrounded : producer.Grounded) :
    Grounded { producer with client := producer.client.disconnected } where
  coherent := hgrounded.coherent
  distinct := hgrounded.distinct.disconnected
  short topic publication hfound := by
    rw [Client.publication?_disconnected] at hfound
    obtain ⟨old, hold, -⟩ := Option.map_eq_some_iff.mp hfound
    exact hgrounded.short topic old hold
  coalesced := ⟨hgrounded.coalesced.marked, hgrounded.coalesced.nodup⟩
  shows topic hshort := by
    obtain ⟨stored, history, standing, hshows, hheard⟩ := hgrounded.shows topic hshort
    refine ⟨stored, history, _, hshows.disconnected, fun hplace => hheard fun hnone => hplace ?_⟩
    rw [hnone]
    rfl

theorem Shows.standing_ne_none (hshows : producer.Shows topic stored history standing)
    {publication : Publication} (hfound : producer.client.publication? topic = some publication) :
    standing ≠ none := by
  rintro rfl
  have hstands := hshows.stands
  rw [hfound] at hstands
  cases hstands

/-- Two views of a topic agree on its place. -/
theorem Shows.atEnd_iff (hshows : producer.Shows topic stored history standing) :
    producer.AtEnd topic ↔ standing = some ⟨history.length, none⟩ := by
  constructor
  · rintro ⟨other, past, hother⟩
    obtain rfl := Except.ok.inj (hshows.current.symm.trans hother.current)
    have hlength : past.length = history.length := hother.keeps.1.trans hshows.keeps.1.symm
    have hstands := hshows.stands
    obtain ⟨found, cursor, hfound, -, htracked, hoffset, hidle⟩ := hother.stands.exists_tracked
    rw [hfound] at hstands
    cases hstands with
    | present _ hsame _ =>
      obtain rfl := Option.some.inj (htracked.found.symm.trans hsame.found)
      rw [hoffset, hidle, hlength]
  · rintro rfl
    exact ⟨stored, history, hshows⟩

/-- The topics that are still to be looked at after a visit of one topic. -/
theorem Tends.visited (htends : producer.Tends clock visits)
    (hnone : producer.client.publication? topic = none)
    (hvisits : ∀ other, other ≠ topic → visits other → rest other) : producer.Tends clock rest := by
  intro other publication hfound
  refine (htends other publication hfound).mono (.refl _) le_rfl ?_ id
  rw [(Client.mem_of_publication? hfound).2]
  refine hvisits other ?_
  rintro rfl
  rw [hnone] at hfound
  cases hfound

/-- A look at a topic leaves it with what brings it back, or at its end. -/
theorem Grounded.nextPublish (hgrounded : producer.Grounded) (htends : producer.Tends clock visits)
    (hvisits : ∀ other, other ≠ topic → visits other → rest other) {random : Float}
    {region? : Option Region} (hnext : producer.nextPublish topic ⟨clock, random⟩ = (region?, after)) :
    after.Grounded ∧ after.Tends clock rest := by
  have hminds := producer.nextPublish_minds topic ⟨clock, random⟩
  rw [hnext] at hminds
  cases hfound : producer.client.publication? topic with
  | none =>
    simp only [Producer.nextPublish, hfound, Prod.mk.injEq] at hnext
    obtain ⟨-, rfl⟩ := hnext
    exact ⟨hgrounded, htends.visited hfound hvisits⟩
  | some publication =>
    have hshort := hgrounded.short topic publication hfound
    obtain ⟨stored, history, standing, hshows, hheard⟩ := hgrounded.shows topic hshort
    have hattends : ∀ later, after.client.publication? topic = some later →
        after.client.Attends clock rest (after.AtEnd topic) later := fun later hlater =>
      hshows.nextPublish_attends hgrounded.coherent (htends topic) hnext hlater
    have hchooses := hshows.nextPublish_spec hgrounded.coherent ⟨clock, random⟩
    rw [hnext] at hchooses
    cases hchooses with
    | nothing hturns =>
      exact ⟨hgrounded.turn_known hshort hheard hturns hminds id,
        htends.turn hgrounded hturns hminds hvisits hattends⟩
    | region hturns =>
      exact ⟨hgrounded.turn_known hshort hheard hturns hminds (by simp),
        htends.turn hgrounded hturns hminds hvisits hattends⟩

/-- A read that ended leaves its topic with the reply or the timer that it waits for. -/
theorem Grounded.finishRead (hgrounded : producer.Grounded) (htends : producer.Tends clock visits)
    {moment : Moment} {region : Region} {outcome : Except IoFault Bytes}
    {sent : Except WireFault (Option Bytes)}
    (hfinish : producer.finishRead topic moment region outcome = (sent, after)) :
    after.Grounded ∧ after.Tends clock visits := by
  unfold Producer.finishRead at hfinish
  cases outcome with
  | error fault =>
    obtain ⟨-, rfl⟩ := Prod.mk.inj hfinish
    let cleared := producer.client.clearOutstanding topic
    cases hfound : producer.client.publication? topic with
    | none =>
      have hsame : cleared.scheduleRetry topic moment = producer.client := by
        simp only [cleared, Client.clearOutstanding, Client.modify_of_none hfound,
          Client.scheduleRetry, hfound]
      rw [hsame]
      exact ⟨hgrounded, htends⟩
    | some publication =>
      have hshort := hgrounded.short topic publication hfound
      obtain ⟨stored, history, standing, hshows, hheard⟩ := hgrounded.shows topic hshort
      obtain ⟨-, hcleared⟩ := producer.client.clearOutstanding_spec hfound producer.client.stats
      have hminds : producer.Minds { producer with client := cleared.scheduleRetry topic moment } :=
        ⟨(producer.client.remembers_clearOutstanding topic).trans
          (cleared.remembers_scheduleRetry topic moment), .of_logs_eq rfl⟩
      obtain ⟨place, hturns⟩ := hshows.turns_unread hgrounded.coherent hfound moment
      refine ⟨hgrounded.turn_known hshort hheard hturns hminds fun _ =>
          hshows.standing_ne_none hfound,
        htends.turn hgrounded hturns hminds (fun _ _ => id) fun later hlater => ?_⟩
      refine Client.scheduleRetry_attends (fun old hold => ?_) moment hlater
      obtain rfl := Option.some.inj (hcleared.symm.trans hold)
      rfl
  | ok data =>
    dsimp only at hfinish
    split at hfinish
    · obtain ⟨-, rfl⟩ := Prod.mk.inj hfinish
      exact ⟨hgrounded, htends⟩
    · obtain ⟨-, rfl⟩ := Prod.mk.inj hfinish
      have hcounted : producer.client.Remembers (producer.countPublish data.length).client :=
        .of_eq rfl rfl (List.Subset.refl _)
      have hstore : (producer.countPublish data.length).store = producer.store := rfl
      have htended : (producer.countPublish data.length).Tends clock visits :=
        htends.congr hstore rfl fun _ _ _ hattends => hattends.mono hcounted le_rfl id id
      exact ⟨hgrounded.congr rfl rfl rfl (hcounted.coalesced hgrounded.coalesced), htended⟩

/-- A reply that was taken up leaves its topic with the timer that it waits for, or it is looked at
    next. -/
theorem Grounded.handleReply (hgrounded : producer.Grounded) (htends : producer.Tends clock visits)
    {packet : Packet} {moment : Moment} {outcome : Except Fault String}
    (hreply : producer.handleReply packet moment = (outcome, after)) :
    after.Grounded ∧ ∀ topic (rest : String → Prop), outcome = .ok topic → rest topic →
      (∀ other, other ≠ topic → visits other → rest other) → after.Tends clock rest := by
  cases hname : Utf8.decode? packet.topic with
  | none =>
    simp only [Producer.handleReply, hname, Prod.mk.injEq] at hreply
    obtain ⟨rfl, rfl⟩ := hreply
    exact ⟨hgrounded, nofun⟩
  | some topic =>
    by_cases hpacket : packet.IsReply
    · cases hfound : producer.client.publication? topic with
      | none =>
        have hidle := Client.outstanding?_eq_none hfound
        obtain ⟨rfl, rfl⟩ := Prod.mk.inj
          ((handleReply_of_idle hname hidle hpacket moment).symm.trans hreply)
        refine ⟨hgrounded, fun name rest hsame hvisit hvisits => ?_⟩
        obtain rfl := Except.ok.inj hsame
        exact htends.visited hfound hvisits
      | some publication =>
        have hshort := hgrounded.short topic publication hfound
        obtain ⟨stored, history, standing, hshows, hheard⟩ := hgrounded.shows topic hshort
        have hminds := producer.handleReply_minds packet moment
        have htakes := hshows.handleReply_spec hgrounded.coherent hpacket
          (Utf8.encode_of_decode? hname).symm moment
        rw [hreply] at hminds htakes
        cases htakes with
        | aside =>
          refine ⟨hgrounded, fun name rest hsame hvisit hvisits => ?_⟩
          obtain rfl := Except.ok.inj hsame
          exact htends.turn hgrounded (hshows.turns_self hgrounded.coherent) hminds hvisits
            fun later hlater => hshows.handleReply_attends hreply (htends topic) hvisit hlater
        | refused hturns =>
          exact ⟨hgrounded.turn_known hshort hheard hturns hminds id, nofun⟩
        | settled hturns =>
          refine ⟨hgrounded.turn_known hshort hheard hturns hminds (by simp),
            fun name rest hsame hvisit hvisits => ?_⟩
          obtain rfl := Except.ok.inj hsame
          exact htends.turn hgrounded hturns hminds hvisits fun later hlater =>
            hshows.handleReply_attends hreply (htends topic) hvisit hlater
    · cases packet with
      | publish offset name data =>
        simp only [Producer.handleReply, hname, Prod.mk.injEq] at hreply
        obtain ⟨rfl, rfl⟩ := hreply
        exact ⟨hgrounded, nofun⟩
      | _ => exact absurd trivial hpacket

end Producer

namespace ConnectionLoop

variable {loop : ConnectionLoop} {topic : String}

/-- The topics that the client looks at before it waits. A client without a connection will look at
    all of them. -/
def Expects (loop : ConnectionLoop) (topic : String) : Prop :=
  ∀ round, loop.round = some round → topic ∈ round.visits

/-- No topic of a loop needs a wake. -/
structure Sound (loop : ConnectionLoop) : Prop where
  grounded : loop.producer.Grounded
  tends : loop.producer.Tends loop.clock loop.Expects

/-- Without a connection nothing waits, and every topic will be looked at. -/
theorem sound_lose (hgrounded : loop.producer.Grounded) : loop.lose.Sound where
  grounded := hgrounded.disconnected
  tends topic publication hfound := by
    obtain ⟨old, -, rfl⟩ := Option.map_eq_some_iff.mp (Client.publication?_disconnected.symm.trans hfound)
    exact .expected rfl nofun (Or.inr nofun)

/-- The client goes on with its publications as they are. -/
theorem Sound.setClient (hsound : loop.Sound) {after : ConnectionLoop}
    (hstore : after.producer.store = loop.producer.store)
    (hpublications : after.producer.client.publications = loop.producer.client.publications)
    (hsettings : after.producer.client.settings = loop.producer.client.settings)
    (hcoalesced : after.producer.client.Coalesced)
    (hattends : ∀ publication atEnd, publication ∈ loop.producer.client.publications →
      loop.producer.client.Attends loop.clock loop.Expects atEnd publication →
        after.producer.client.Attends after.clock after.Expects atEnd publication) : after.Sound where
  grounded := hsound.grounded.congr hstore hpublications hsettings hcoalesced
  tends := hsound.tends.congr hstore hpublications hattends

theorem Sound.append (hsound : loop.Sound) (hshort : topic.utf8ByteSize ≤ maxNameLength) (data : Bytes)
    (rollSize : Nat) {now : Instant} (hnow : now.InCalendar)
    (hfits : ∀ stored, loop.producer.store.current topic = .ok stored →
      stored.log.maxOffset + data.length ≤ Decimal.maxValue) :
    (loop.perform (.append topic data rollSize now)).Sound := by
  obtain ⟨hgrounded, htends⟩ := hsound
  obtain ⟨stored, history, standing, hshows, hheard⟩ := hgrounded.shows topic hshort
  have hlength : (history ++ data).length ≤ Decimal.maxValue := by
    rw [List.length_append, hshows.keeps.1]
    exact hfits stored hshows.current
  obtain ⟨later, more, hturns, -, -⟩ :=
    hshows.append_spec hgrounded.coherent hshort data rollSize hnow hlength
  obtain ⟨hretains, htold⟩ := hgrounded.coherent.append_told hshows.current hshows.keeps data rollSize
    hnow hlength
  have hminds : loop.producer.Minds
      (loop.producer.change fun store => store.append topic data rollSize now).2 :=
    ⟨Client.remembers_notice _ _, hretains⟩
  refine ⟨hgrounded.turn_known hshort hheard hturns hminds id,
    htends.turn hgrounded hturns hminds (fun _ _ => id) fun publication hfound => ?_⟩
  have hsame := Client.publication?_congr (Client.publications_notice loop.producer.client
    ((loop.producer.store.append topic data rollSize now).2.events.drop
      loop.producer.store.events.length)).1 topic
  have hold : loop.producer.client.publication? topic = some publication := hsame.symm.trans hfound
  obtain ⟨maxOffset, hevent⟩ := htold _ (hheard (hshows.standing_ne_none hold))
  have hqueued := hgrounded.coalesced.mem_notice hevent
  refine ((htends topic publication hold).mono hminds.client le_rfl id id).queued ?_
  rw [(Client.mem_of_publication? hold).2]
  exact hqueued

/-- A cleanup takes nothing from a topic that it has to publish. -/
theorem Sound.clean (hsound : loop.Sound) (hshort : topic.utf8ByteSize ≤ maxNameLength) {α : Type}
    {work : StoredLog → Except Fault α × StoredLog}
    (hwork : ∀ stored history, stored.Keeps history → (work stored).2.Keeps history ∧
      (∃ gate, gate ≤ stored.log.gate ∧ stored.log.Cleaned gate (work stored).2.log) ∧
      (work stored).2.dir.nextId = stored.dir.nextId) :
    Sound { loop with
      producer := (loop.producer.change fun store => store.onTopic topic work).2 } := by
  obtain ⟨hgrounded, htends⟩ := hsound
  obtain ⟨stored, history, standing, hshows, hheard⟩ := hgrounded.shows topic hshort
  obtain ⟨hkeeps, ⟨gate, hgate, hcleaned⟩, hid⟩ := hwork stored history hshows.keeps
  obtain ⟨later, hturns, -⟩ :=
    hshows.clean_spec hgrounded.coherent hshort hkeeps hcleaned hgate hid
  have hretains := hgrounded.coherent.retains_onTopic hshows.current hcleaned.listeners_eq
  have hminds : loop.producer.Minds
      (loop.producer.change fun store => store.onTopic topic work).2 :=
    ⟨Client.remembers_notice _ _, hretains⟩
  refine ⟨hgrounded.turn_known hshort hheard hturns hminds id,
    htends.turn hgrounded hturns hminds (fun _ _ => id) fun publication hfound => ?_⟩
  have hold : loop.producer.client.publication? topic = some publication :=
    (Client.publication?_congr (Client.publications_notice _ _).1 topic).symm.trans hfound
  refine (htends topic publication hold).mono hminds.client le_rfl id fun hend => ?_
  exact hturns.shows.atEnd_iff.mpr (hshows.atEnd_iff.mp hend)

/-- A topic that the client takes up is looked at before long. -/
theorem Sound.joins (hsound : loop.Sound) (hshort : topic.utf8ByteSize ≤ maxNameLength) {offset : Nat}
    {producer : Producer} (henrols : loop.producer.Enrols producer)
    (hjoins : ∀ stored history standing, loop.producer.Shows topic stored history standing →
      loop.producer.Joins topic stored history standing offset producer) :
    Sound { loop with producer } := by
  obtain ⟨hgrounded, htends⟩ := hsound
  obtain ⟨stored, history, standing, hshows, hheard⟩ := hgrounded.shows topic hshort
  obtain ⟨later, place, hturns, -, hplace⟩ := hjoins stored history standing hshows
  have hminds := henrols.toMinds
  refine ⟨hgrounded.turn hshort hturns hminds fun hpresent => ?_,
    htends.turn hgrounded hturns hminds (fun _ _ => id) fun publication hfound => ?_⟩
  · obtain ⟨standing, rfl⟩ := Option.ne_none_iff_exists'.mp hpresent
    obtain ⟨publication, cursor, hfound, hopen, -⟩ := hturns.shows.stands.exists_tracked
    rcases henrols.joined topic publication hfound with hold | hnew
    · rw [henrols.name]
      exact (hheard (hshows.standing_ne_none hold)).carry hminds.store (hturns.updates.opened topic)
    · exact ⟨publication.handle.log, hopen, hnew.heard⟩
  · rcases henrols.joined topic publication hfound with hold | hnew
    · refine (htends topic publication hold).mono hminds.client le_rfl id fun hend => ?_
      rcases hplace with rfl | ⟨hnone, -⟩
      · exact hturns.shows.atEnd_iff.mpr (hshows.atEnd_iff.mp hend)
      · exact absurd hnone (hshows.standing_ne_none hold)
    · exact .expected hnew.idle (by simp [hnew.retryAt]) (Or.inl hnew.queued)

theorem Sound.fire (hsound : loop.Sound) (ready : Nat × String → Bool)
    (hdue : ∀ timer ∈ loop.producer.client.timers, ready timer = true → timer.1 ≤ loop.clock) :
    (loop.perform (.fire ready)).Sound := by
  obtain ⟨hpublications, hsettings⟩ := loop.producer.client.publications_fireThose ready
  obtain ⟨hqueue, hfired⟩ := loop.producer.client.fireThose_spec ready
  obtain ⟨hcoalesced, htimers⟩ := hfired hsound.grounded.coalesced
  refine hsound.setClient rfl hpublications hsettings hcoalesced fun publication atEnd _ hattends => ?_
  cases hattends with
  | halted hhalted => exact .halted hhalted
  | waits hwaits hretry => exact .waits hwaits hretry
  | retries hidle hretry htimer =>
    rcases htimers _ htimer with hkept | ⟨hready, hqueued⟩
    · exact .retries hidle hretry hkept
    · refine .expected hidle (fun due hother => ?_) (Or.inl hqueued)
      obtain rfl := Option.some.inj (hretry.symm.trans hother)
      exact hdue _ htimer hready
  | expected hidle hlate hexpected =>
    exact .expected hidle hlate (hexpected.imp_left fun hqueued => hqueue hqueued)
  | done hidle hretry hend => exact .done hidle hretry hend

theorem Sound.connect (hsound : loop.Sound) : loop.connect.Sound := by
  unfold ConnectionLoop.connect
  cases hround : loop.round with
  | some round => exact hsound
  | none =>
    refine hsound.setClient rfl rfl rfl ⟨fun _ => Iff.rfl, List.nodup_nil⟩
      fun publication atEnd hmem hattends => ?_
    cases hattends with
    | halted hhalted => exact .halted hhalted
    | waits hwaits hretry => exact .waits hwaits hretry
    | retries hidle hretry htimer => exact .retries hidle hretry htimer
    | done hidle hretry hend => exact .done hidle hretry hend
    | expected hidle hlate hexpected =>
      refine .expected hidle hlate (Or.inr fun round hround => ?_)
      obtain rfl := Option.some.inj hround
      exact List.mem_map_of_mem hmem

theorem Sound.take (hsound : loop.Sound) : loop.take.Sound := by
  unfold ConnectionLoop.take
  split
  next topic client hround htake =>
    obtain ⟨hqueue, htimers, hcoalesced⟩ := Client.take_spec htake
    obtain ⟨hpublications, hsettings⟩ := Client.publications_take htake
    refine hsound.setClient rfl hpublications hsettings (hcoalesced hsound.grounded.coalesced)
      fun publication atEnd _ hattends => ?_
    cases hattends with
    | halted hhalted => exact .halted hhalted
    | waits hwaits hretry => exact .waits hwaits hretry
    | retries hidle hretry htimer => exact .retries hidle hretry (htimers ▸ htimer)
    | done hidle hretry hend => exact .done hidle hretry hend
    | expected hidle hlate hexpected =>
      refine .expected hidle hlate ?_
      rcases hexpected with hqueued | hvisit
      · rw [hqueue] at hqueued
        rcases List.mem_cons.mp hqueued with hfirst | hrest
        · refine Or.inr fun round hnext => ?_
          obtain rfl := Option.some.inj hnext
          exact List.mem_singleton.mpr hfirst
        · exact Or.inl hrest
      · exact absurd (hvisit _ hround) (by simp)
  · exact hsound

theorem Sound.wait (hsound : loop.Sound) (duration : Nat) : (loop.perform (.wait duration)).Sound :=
  hsound.setClient rfl rfl rfl hsound.grounded.coalesced fun _ _ _ hattends =>
    hattends.mono (.refl _) (Nat.le_add_right _ _) id id

theorem Sound.wake (hsound : loop.Sound) (topic : String) : (loop.perform (.wake topic)).Sound := by
  obtain ⟨hpublications, hsettings⟩ := Client.publications_wake loop.producer.client topic
  have hremembers := loop.producer.client.remembers_wake topic
  exact hsound.setClient rfl hpublications hsettings (hremembers.coalesced hsound.grounded.coalesced)
    fun _ _ _ hattends => hattends.mono hremembers le_rfl id id

theorem Sound.visit (hsound : loop.Sound) (random : Float) : (loop.visit random).Sound := by
  unfold ConnectionLoop.visit
  split
  next topic visits hround =>
    obtain ⟨hgrounded, htends⟩ := hsound
    have hvisits : ∀ region? : Option Region, ∀ other, other ≠ topic → loop.Expects other →
        Expects { loop with round := some { visits, reading := region?.map (topic, ·) } } other := by
      rintro region? other hother hexpected round hnext
      obtain rfl := Option.some.inj hnext
      exact (List.mem_cons.mp (hexpected _ hround)).resolve_left hother
    rcases hnext : loop.producer.nextPublish topic ⟨loop.clock, random⟩ with ⟨region?, producer⟩
    obtain ⟨hafter, htended⟩ := hgrounded.nextPublish htends (hvisits region?) hnext
    exact ⟨hafter, htended⟩
  · exact hsound

theorem Sound.finishRead (hsound : loop.Sound) (outcome : Except IoFault Bytes) (random : Float) :
    (loop.finishRead outcome random).Sound := by
  unfold ConnectionLoop.finishRead
  split
  next visits topic region hround =>
    obtain ⟨hgrounded, htends⟩ := hsound
    split
    next producer hfinish => exact sound_lose (hgrounded.finishRead htends hfinish).1
    next producer hfinish =>
      obtain ⟨hafter, htended⟩ := hgrounded.finishRead htends hfinish
      refine ⟨hafter, htended.congr rfl rfl fun _ _ _ hattends =>
        hattends.mono (.refl _) le_rfl (fun hvisit round hnext => ?_) id⟩
      have hpending := hvisit _ hround
      obtain rfl := Option.some.inj hnext
      exact hpending
  · exact hsound

theorem Sound.reply (hsound : loop.Sound) (packet : Packet) (random : Float) :
    (loop.reply packet random).Sound := by
  unfold ConnectionLoop.reply
  split
  next hround =>
    obtain ⟨hgrounded, htends⟩ := hsound
    split
    next producer hreply => exact sound_lose (hgrounded.handleReply htends hreply).1
    next topic producer hreply =>
      obtain ⟨hafter, htended⟩ := hgrounded.handleReply htends hreply
      refine ⟨hafter, htended topic _ rfl (fun round hnext => ?_) fun other _ hvisit => ?_⟩
      · obtain rfl := Option.some.inj hnext
        exact List.mem_singleton_self topic
      · exact absurd (hvisit _ hround) (by simp)
  · exact hsound

/-- No action loses a wake. -/
theorem Sound.perform (hsound : loop.Sound) (action : Action) (hfits : loop.Fits action) :
    (loop.perform action).Sound := by
  cases action with
  | append topic data rollSize now =>
    obtain ⟨hshort, hnow, hlength⟩ := hfits
    exact hsound.append hshort data rollSize hnow hlength
  | cleanup topic retain now =>
    refine hsound.clean hfits fun stored history hkeeps => ?_
    obtain ⟨hafter, hcleaned, hid⟩ := hkeeps.cleanup retain now
    exact ⟨hafter, ⟨_, le_rfl, hcleaned⟩, hid⟩
  | cleanupAll topic retain external now =>
    refine hsound.clean hfits fun stored history hkeeps => ?_
    obtain ⟨hafter, hcleaned, hid⟩ := hkeeps.cleanupAll retain external now
    exact ⟨hafter, ⟨_, min_le_left _ _, hcleaned⟩, hid⟩
  | register topic offset =>
    exact hsound.joins hfits (Producer.register_enrols hsound.grounded.coalesced topic offset)
      fun _ _ _ hshows => hshows.register_spec hsound.grounded.coherent hfits offset
  | enlist topic name offset =>
    exact hsound.joins hfits (Producer.enlist_enrols hsound.grounded.coalesced topic name offset)
      fun _ _ _ hshows => hshows.enlist_spec hsound.grounded.coherent hfits name offset
  | wake topic => exact hsound.wake topic
  | wait duration => exact hsound.wait duration
  | fire ready => exact hsound.fire ready hfits
  | connect => exact hsound.connect
  | disconnect => exact sound_lose hsound.grounded
  | visit random => exact hsound.visit random
  | finishRead outcome random => exact hsound.finishRead outcome random
  | take => exact hsound.take
  | reply packet random => exact hsound.reply packet random

variable {volume : Volume} {settings : SyncSettings} {sinks : List Sink} {clock : Nat}
  {first : String → Nat} {history : String → Bytes}

theorem sound_start (hvolume : volume.Stores first history) (settings : SyncSettings)
    (sinks : List Sink) (clock : Nat) : (start volume settings sinks clock).Sound := by
  refine ⟨⟨nofun, nofun, nofun, ⟨fun _ => Iff.rfl, List.nodup_nil⟩, fun topic hshort => ?_⟩, nofun⟩
  obtain ⟨stored, hstored, hkeeps, -, -, hreaders⟩ := (hvolume topic hshort).exists_keeps
  refine ⟨stored, history topic, none, ⟨hstored, hkeeps, ?_, .absent⟩, fun hplace => absurd rfl hplace⟩
  intro reader hmem
  rw [hreaders] at hmem
  cases hmem

theorem Run.sound (hvolume : volume.Stores first history)
    (hrun : Run (start volume settings sinks clock) loop) : loop.Sound := by
  induction hrun with
  | refl => exact sound_start hvolume settings sinks clock
  | step _ action hfits ih => exact ih.perform action hfits

end ConnectionLoop

end ReplicatedLog
