import ReplicatedLog.Proofs.Replication.Replies
import ReplicatedLog.Proofs.Replication.Membership
import ReplicatedLog.Proofs.Replication.Waking
import ReplicatedLog.Proofs.Store.Listeners

namespace ReplicatedLog

namespace Client

/-- A topic needs no wake: it was given up, waits for a reply or a timer, is about to be looked at
    because it is in the queue or among `visits`, or there is nothing to be published. -/
inductive Attends (client : Client) (clock : Nat) (visits : String → Prop) (atEnd : Prop)
    (publication : Publication) : Prop
  | halted (hhalted : publication.halted = true)
  | waits {length : Nat} (hwaits : publication.outstanding = some length)
      (hretry : publication.retryAt = none)
  | retries {due : Nat} (hidle : publication.outstanding = none)
      (hretry : publication.retryAt = some due) (htimer : (due, publication.topic) ∈ client.timers)
  | expected (hidle : publication.outstanding = none)
      (hdue : ∀ due, publication.retryAt = some due → due ≤ clock)
      (hexpected : publication.topic ∈ client.queue ∨ visits publication.topic)
  | done (hidle : publication.outstanding = none) (hretry : publication.retryAt = none)
      (hend : atEnd)

variable {client after : Client} {clock later : Nat} {moment : Moment} {visits rest : String → Prop}
  {atEnd stillAtEnd : Prop} {publication : Publication} {topic : String}

namespace Attends

theorem mono (hattends : client.Attends clock visits atEnd publication)
    (hremembers : client.Remembers after) (hclock : clock ≤ later)
    (hvisits : visits publication.topic → rest publication.topic)
    (hend : atEnd → stillAtEnd) : after.Attends later rest stillAtEnd publication := by
  cases hattends with
  | halted hhalted => exact .halted hhalted
  | waits hwaits hretry => exact .waits hwaits hretry
  | retries hidle hretry htimer => exact .retries hidle hretry (hremembers.timers htimer)
  | expected hidle hdue hexpected =>
    refine .expected hidle (fun due hretry => (hdue due hretry).trans hclock) ?_
    exact hexpected.imp (fun hqueued => hremembers.queue hqueued) hvisits
  | done hidle hretry hdone => exact .done hidle hretry (hend hdone)

theorem visited (hattends : client.Attends clock visits atEnd publication)
    (hfound : client.publication? topic = some publication) (hvisit : rest topic) :
    client.Attends clock rest atEnd publication :=
  hattends.mono (.refl _) le_rfl (fun _ => (mem_of_publication? hfound).2.symm ▸ hvisit) id

/-- A topic in the queue needs no wake, however much there is to be published. -/
theorem queued (hattends : client.Attends clock visits atEnd publication)
    (hqueued : publication.topic ∈ client.queue) :
    client.Attends clock visits stillAtEnd publication := by
  cases hattends with
  | halted hhalted => exact .halted hhalted
  | waits hwaits hretry => exact .waits hwaits hretry
  | retries hidle hretry htimer => exact .retries hidle hretry htimer
  | expected hidle hdue hexpected => exact .expected hidle hdue hexpected
  | done hidle hretry hdone => exact .expected hidle (by simp [hretry]) (Or.inl hqueued)

end Attends

theorem scheduleRetry_attends (hidle : ∀ publication, client.publication? topic = some publication →
      publication.outstanding = none) (moment : Moment) {found : Publication}
    (hfound : (client.scheduleRetry topic moment).publication? topic = some found) :
    (client.scheduleRetry topic moment).Attends clock visits atEnd found := by
  unfold scheduleRetry at hfound ⊢
  cases hpublication : client.publication? topic with
  | none =>
    rw [hpublication] at hfound
    exact absurd (hpublication.symm.trans hfound) (by simp)
  | some publication =>
    have hnone := hidle publication hpublication
    simp only [hpublication] at hfound ⊢
    split at hfound
    next hallowed =>
      rw [if_pos hallowed]
      have hmodified (failures due : Nat) : (client.modify topic fun old =>
          { old with failures, retryAt := some due }).publication? topic =
            some { publication with failures, retryAt := some due } :=
        publication?_modify_self (by simp) hpublication
      obtain rfl := Option.some.inj ((hmodified _ _).symm.trans hfound)
      refine .retries hnone rfl (List.mem_append_right _ ?_)
      rw [List.mem_singleton, (mem_of_publication? hpublication).2]
    next hrefused =>
      rw [if_neg hrefused]
      rw [publication?_modify_self (by simp) hpublication] at hfound
      obtain rfl := Option.some.inj hfound
      exact .halted rfl

theorem cursorFailed_attends (hidle : ∀ publication, client.publication? topic = some publication →
      publication.outstanding = none) (fault : Fault) (moment : Moment) {found : Publication}
    (hfound : (client.cursorFailed topic fault moment).publication? topic = some found) :
    (client.cursorFailed topic fault moment).Attends clock visits atEnd found := by
  unfold cursorFailed at hfound ⊢
  split at hfound
  next hfatal =>
    rw [if_pos hfatal]
    rw [publication?_modify (by simp)] at hfound
    obtain ⟨publication, hpublication, rfl⟩ := Option.map_eq_some_iff.mp hfound
    rw [if_pos (mem_of_publication? hpublication).2]
    exact .halted rfl
  next hpassing =>
    rw [if_neg hpassing]
    exact scheduleRetry_attends hidle moment hfound

/-- A topic that waits for nothing is about to be looked at. -/
theorem attends_of_visit (hfound : client.publication? topic = some publication)
    (hidle : publication.outstanding = none) (hretry : publication.retryAt = none)
    (hvisit : visits topic) : client.Attends clock visits atEnd publication :=
  .expected hidle (by simp [hretry]) (Or.inr ((mem_of_publication? hfound).2 ▸ hvisit))

/-- A topic whose reader was moved is looked at next, or tried again later where that failed. -/
theorem attends_of_moved {moved : Client} {outcome : Except Fault Unit} {later : Publication}
    (hfound : client.publication? topic = some publication)
    (hidle : publication.outstanding = none)
    (hmoved : ∀ later, moved.publication? topic = some later →
      later.outstanding = none ∧ later.retryAt = none)
    (hafter : after = match outcome with
      | .ok () => moved
      | .error fault => client.cursorFailed topic fault moment)
    (hvisit : visits topic) (hlater : after.publication? topic = some later) :
    after.Attends clock visits atEnd later := by
  subst hafter
  cases outcome with
  | ok =>
    obtain ⟨hnone, hretry⟩ := hmoved later hlater
    exact attends_of_visit hlater hnone hretry hvisit
  | error fault =>
    refine cursorFailed_attends (fun found hpublication => ?_) fault moment hlater
    obtain rfl := Option.some.inj (hfound.symm.trans hpublication)
    exact hidle

end Client

namespace Producer

/-- Nothing a producer was to look at was dropped, and it still hears of its logs. -/
structure Minds (producer after : Producer) : Prop where
  client : producer.client.Remembers after.client
  store : producer.store.Retains after.store

/-- All that the log of a topic has is acknowledged. -/
def AtEnd (producer : Producer) (topic : String) : Prop :=
  ∃ stored history, producer.Shows topic stored history (some ⟨history.length, none⟩)

variable {producer middle after : Producer} {topic : String} {stored : StoredLog} {history : Bytes}
  {standing : Option Standing} {publication : Publication} {clock : Nat} {moment : Moment}
  {visits rest : String → Prop}

theorem Minds.refl (producer : Producer) : producer.Minds producer :=
  ⟨.refl _, .of_logs_eq rfl⟩

theorem Minds.trans (hfirst : producer.Minds middle) (hsecond : middle.Minds after) :
    producer.Minds after :=
  ⟨hfirst.client.trans hsecond.client, hfirst.store.trans hsecond.store⟩

/-- What comes of looking for the next bytes of a publication. -/
inductive Looks (producer : Producer) (topic : String) (moment : Moment) (publication : Publication) :
    Option Region × Producer → Prop
  | aside (hidle : publication.halted = true ∨ publication.outstanding ≠ none ∨
      ∃ due, publication.retryAt = some due ∧ moment.time < due) :
      Looks producer topic moment publication (none, producer)
  | failed {fault : Fault} {store : Store} (hretains : producer.store.Retains store)
      (hidle : publication.outstanding = none) :
      Looks producer topic moment publication (none, { producer with
        store
        client := (producer.client.modify topic fun publication =>
          { publication with retryAt := none }).cursorFailed topic fault moment })
  | nothing {store : Store} (hretains : producer.store.Retains store)
      (hreading : publication.halted = false) (hidle : publication.outstanding = none)
      (hcursor : producer.store.onCursor publication.handle (fun topic dir cursor =>
        cursor.nextRegion topic dir producer.client.settings.chunkSize) = (.ok none, store)) :
      Looks producer topic moment publication (none, { producer with
        store
        client := producer.client.modify topic fun publication =>
          { publication with retryAt := none } })
  | found {region : Region} {store : Store} (hretains : producer.store.Retains store) :
      Looks producer topic moment publication (some region, { producer with
        store
        client := (producer.client.modify topic fun publication =>
            { publication with retryAt := none }).modify topic fun publication =>
          { publication with
            outstanding := some region.length
            publishedBytes := publication.publishedBytes + region.length
            everPublished := true } })

theorem nextPublish_looks (hfound : producer.client.publication? topic = some publication)
    (moment : Moment) : producer.Looks topic moment publication (producer.nextPublish topic moment) := by
  unfold nextPublish
  simp only [hfound]
  split
  next hidle =>
    refine .aside ?_
    simpa [or_assoc, Option.isSome_iff_ne_none, Option.any_eq_true] using hidle
  next hidle =>
    simp only [Bool.or_eq_true, not_or, Bool.not_eq_true, Option.isSome_eq_false_iff,
      Option.isNone_iff_eq_none] at hidle
    obtain ⟨⟨hreading, hnone⟩, -⟩ := hidle
    have hretains : ∀ outcome store, producer.store.onCursor publication.handle
        (fun topic dir cursor => cursor.nextRegion topic dir producer.client.settings.chunkSize) =
          (outcome, store) → producer.store.Retains store := by
      intro outcome store hcursor
      have hwork := producer.store.retains_onCursor publication.handle fun topic dir cursor =>
        cursor.nextRegion topic dir producer.client.settings.chunkSize
      rwa [hcursor] at hwork
    split
    next hcursor => exact .failed (hretains _ _ hcursor) hnone
    next hcursor => exact .nothing (hretains _ _ hcursor) hreading hnone hcursor
    next hcursor => exact .found (hretains _ _ hcursor)

theorem nextPublish_minds (producer : Producer) (topic : String) (moment : Moment) :
    producer.Minds (producer.nextPublish topic moment).2 := by
  cases hfound : producer.client.publication? topic with
  | none =>
    simp only [nextPublish, hfound]
    exact .refl producer
  | some publication =>
    have hmodified := producer.client.remembers_modify topic fun publication =>
      { publication with retryAt := none }
    cases hnext : producer.nextPublish topic moment with
    | mk outcome after =>
      have hlooks := nextPublish_looks hfound moment
      rw [hnext] at hlooks
      cases hlooks with
      | aside => exact .refl producer
      | failed hretains =>
        exact ⟨hmodified.trans (Client.remembers_cursorFailed _ topic _ moment), hretains⟩
      | nothing hretains => exact ⟨hmodified, hretains⟩
      | found hretains => exact ⟨hmodified.trans (Client.remembers_modify _ topic _), hretains⟩

/-- There are no more bytes only behind the last byte of the log. -/
theorem Shows.eq_of_nothing (hshows : producer.Shows topic stored history standing)
    (hcoherent : producer.store.Coherent)
    (hfound : producer.client.publication? topic = some publication)
    (hreading : publication.halted = false) {limit : Nat} {store : Store}
    (hcursor : producer.store.onCursor publication.handle (fun topic dir cursor =>
      cursor.nextRegion topic dir limit) = (.ok none, store)) :
    standing = some ⟨history.length, publication.outstanding⟩ := by
  have hstands := hshows.stands
  rw [hfound] at hstands
  obtain ⟨hlength, parts, hlaid, -⟩ := id hshows.keeps
  cases hstands with
  | present hopen htracked hwaits =>
  next cursor =>
    obtain ⟨after, hwork, -, -⟩ := hcoherent.onCursor_spec hopen hshows.current htracked.found
      fun topic dir cursor => cursor.nextRegion topic dir limit
    have hspec := Cursor.nextRegion_spec hlaid (htracked.follows hreading) topic limit
    have hnothing := congrArg Prod.fst (hwork.symm.trans hcursor)
    rcases hregion : cursor.nextRegion topic stored.dir limit with ⟨outcome, moved⟩
    rw [hregion] at hspec hnothing
    cases hspec with
    | gap => cases hnothing
    | ok hmoved hoffset hholds =>
      obtain rfl := Except.ok.inj hnothing
      have hlast : moved.offset = stored.log.maxOffset := hholds
      rw [← hoffset, hlast, hlength]

/-- A topic that was looked at needs no wake. -/
theorem Shows.nextPublish_attends (hshows : producer.Shows topic stored history standing)
    (hcoherent : producer.store.Coherent)
    (hattends : ∀ publication, producer.client.publication? topic = some publication →
      producer.client.Attends moment.time visits (producer.AtEnd topic) publication)
    {outcome : Option Region} (hnext : producer.nextPublish topic moment = (outcome, after))
    {later : Publication} (hlater : after.client.publication? topic = some later) :
    after.client.Attends moment.time rest (after.AtEnd topic) later := by
  have hchooses := hshows.nextPublish_spec hcoherent moment
  rw [hnext] at hchooses
  cases hfound : producer.client.publication? topic with
  | none =>
    simp only [nextPublish, hfound, Prod.mk.injEq] at hnext
    obtain ⟨-, rfl⟩ := hnext
    exact absurd (hfound.symm.trans hlater) (by simp)
  | some publication =>
    have hlooks := nextPublish_looks hfound moment
    rw [hnext] at hlooks
    have hcleared : (producer.client.modify topic fun publication =>
        { publication with retryAt := none }).publication? topic =
        some { publication with retryAt := none } :=
      Client.publication?_modify_self (fun _ => rfl) hfound
    cases hlooks with
    | aside hidle =>
      obtain rfl := Option.some.inj (hfound.symm.trans hlater)
      cases hattends publication hfound with
      | halted hhalted => exact .halted hhalted
      | waits hwaits hretry => exact .waits hwaits hretry
      | retries hnone hretry htimer => exact .retries hnone hretry htimer
      | done hnone hretry hend => exact .done hnone hretry hend
      | expected hnone hdue hexpected =>
        rcases hidle with hhalted | hwaits | ⟨due, hretry, hlate⟩
        · exact .halted hhalted
        · exact absurd hnone hwaits
        · exact absurd (hdue due hretry) (Nat.not_le.mpr hlate)
    | failed hretains hnone =>
      refine Client.cursorFailed_attends (fun found hpublication => ?_) _ moment hlater
      obtain rfl := Option.some.inj (hcleared.symm.trans hpublication)
      exact hnone
    | nothing hretains hreading hnone hcursor =>
      obtain rfl := Option.some.inj (hcleared.symm.trans hlater)
      have hplace := hshows.eq_of_nothing hcoherent hfound hreading hcursor
      rw [hnone] at hplace
      cases hchooses with
      | nothing hturns hfirst =>
        rw [hplace] at hturns
        exact .done hnone rfl ⟨_, _, hturns.shows⟩
    | found hretains =>
      rw [Client.publication?_modify_self (by simp) hcleared] at hlater
      obtain rfl := Option.some.inj hlater
      exact .waits rfl rfl

theorem acknowledge_minds (producer : Producer) (topic : String) (moment : Moment) :
    producer.Minds (producer.acknowledge topic moment).2 := by
  unfold acknowledge
  cases hwaiting : producer.client.outstanding? topic with
  | none => exact .refl producer
  | some waiting =>
    obtain ⟨publication, length⟩ := waiting
    dsimp only
    split
    · exact ⟨.refl _, .of_logs_eq rfl⟩
    · have hretains := producer.store.retains_onCursor publication.handle fun topic dir cursor =>
        cursor.consume topic dir length
      have hcounted : producer.client.Remembers { producer.client with
          stats := { producer.client.stats with acks := producer.client.stats.acks + 1 } } :=
        .of_eq rfl rfl (List.Subset.refl _)
      have hmodified := hcounted.trans (Client.remembers_modify _ topic fun publication =>
        { publication with outstanding := none, failures := 0 })
      refine ⟨?_, hretains⟩
      dsimp only
      split
      · exact hmodified.trans (Client.remembers_modify _ topic _)
      · exact hmodified.trans (Client.remembers_cursorFailed _ topic _ moment)

theorem reset_minds (producer : Producer) (topic : String) (offset : Nat) (moment : Moment) :
    producer.Minds (producer.reset topic offset moment).2 := by
  unfold reset
  cases hwaiting : producer.client.outstanding? topic with
  | none => exact .refl producer
  | some waiting =>
    obtain ⟨publication, length⟩ := waiting
    have hcounted : producer.client.Remembers { producer.client with
        stats := { producer.client.stats with resets := producer.client.stats.resets + 1 } } :=
      .of_eq rfl rfl (List.Subset.refl _)
    dsimp only
    split
    · exact ⟨hcounted, .of_logs_eq rfl⟩
    · have hcleared := hcounted.trans (Client.remembers_clearOutstanding _ topic)
      refine ⟨?_, producer.store.retains_seek publication.handle offset⟩
      dsimp only
      split
      · exact hcleared
      · exact hcleared.trans (Client.remembers_cursorFailed _ topic _ moment)

theorem refuse_minds (producer : Producer) (topic : String) (moment : Moment) :
    producer.Minds (producer.refuse topic moment) := by
  unfold refuse
  split
  · exact .refl producer
  · have hcounted : producer.client.Remembers { producer.client with
        stats := { producer.client.stats with failures := producer.client.stats.failures + 1 } } :=
      .of_eq rfl rfl (List.Subset.refl _)
    exact ⟨(hcounted.trans (Client.remembers_clearOutstanding _ topic)).trans
      (Client.remembers_scheduleRetry _ topic moment), .of_logs_eq rfl⟩

theorem handleReply_minds (producer : Producer) (packet : Packet) (moment : Moment) :
    producer.Minds (producer.handleReply packet moment).2 := by
  unfold handleReply
  split
  · exact .refl producer
  next topic _ =>
    cases packet with
    | ack name => exact producer.acknowledge_minds topic moment
    | reset name offset => exact producer.reset_minds topic offset moment
    | failure name => exact producer.refuse_minds topic moment
    | publish offset name data => exact .refl producer

/-- A publish that waits for its reply is not tried again meanwhile. -/
theorem Shows.waiting_cases (hshows : producer.Shows topic stored history standing)
    (hattends : ∀ publication, producer.client.publication? topic = some publication →
      producer.client.Attends clock visits (producer.AtEnd topic) publication) :
    producer.client.outstanding? topic = none ∨ ∃ publication length,
      producer.client.publication? topic = some publication ∧
        producer.client.outstanding? topic = some (publication, length) ∧
        publication.retryAt = none := by
  rcases hshows.outstanding_cases with ⟨hnone, -⟩ | ⟨publication, cursor, length, hfound, hwaiting,
    hwaits, hreading, -⟩
  · exact Or.inl hnone
  · refine Or.inr ⟨publication, length, hfound, hwaiting, ?_⟩
    cases hattends publication hfound with
    | halted hhalted => simp [hreading] at hhalted
    | waits _ hretry => exact hretry
    | retries hidle => simp [hwaits] at hidle
    | expected hidle => simp [hwaits] at hidle
    | done hidle => simp [hwaits] at hidle

/-- A topic whose reply was taken up is looked at next, unless it is to be tried again later. -/
theorem Shows.acknowledge_attends (hshows : producer.Shows topic stored history standing)
    (hattends : ∀ publication, producer.client.publication? topic = some publication →
      producer.client.Attends clock visits (producer.AtEnd topic) publication)
    (hreply : producer.acknowledge topic moment = (.ok (), after)) (hvisit : rest topic)
    {later : Publication}
    (hlater : after.client.publication? topic = some later) :
    after.client.Attends clock rest (after.AtEnd topic) later := by
  unfold acknowledge at hreply
  rcases hshows.waiting_cases hattends with
    hnone | ⟨publication, length, hfound, hwaiting, hretry⟩
  · simp only [hnone, Prod.mk.injEq, true_and] at hreply
    subst hreply
    exact (hattends later hlater).visited hlater hvisit
  · simp only [hwaiting] at hreply
    split at hreply
    · cases hreply
    · obtain ⟨-, rfl⟩ := Prod.mk.inj hreply
      have hcleared : Client.publication? (Client.modify { producer.client with
          stats := { producer.client.stats with acks := producer.client.stats.acks + 1 } } topic
            fun publication => { publication with outstanding := none, failures := 0 }) topic =
          some { publication with outstanding := none, failures := 0 } :=
        Client.publication?_modify_self (by simp) hfound
      refine Client.attends_of_moved hcleared rfl (fun found hpublication => ?_) rfl hvisit hlater
      rw [Client.publication?_modify_self (by simp) hcleared] at hpublication
      obtain rfl := Option.some.inj hpublication
      exact ⟨rfl, hretry⟩

theorem Shows.reset_attends (hshows : producer.Shows topic stored history standing)
    (hattends : ∀ publication, producer.client.publication? topic = some publication →
      producer.client.Attends clock visits (producer.AtEnd topic) publication) {offset : Nat}
    (hreply : producer.reset topic offset moment = (.ok (), after)) (hvisit : rest topic)
    {later : Publication}
    (hlater : after.client.publication? topic = some later) :
    after.client.Attends clock rest (after.AtEnd topic) later := by
  unfold reset at hreply
  rcases hshows.waiting_cases hattends with
    hnone | ⟨publication, length, hfound, hwaiting, hretry⟩
  · simp only [hnone, Prod.mk.injEq, true_and] at hreply
    subst hreply
    exact (hattends later hlater).visited hlater hvisit
  · simp only [hwaiting] at hreply
    split at hreply
    · cases hreply
    · obtain ⟨-, rfl⟩ := Prod.mk.inj hreply
      obtain ⟨-, hcleared⟩ := producer.client.clearOutstanding_spec hfound
        { producer.client.stats with resets := producer.client.stats.resets + 1 }
      refine Client.attends_of_moved hcleared rfl (fun found hpublication => ?_) rfl hvisit hlater
      obtain rfl := Option.some.inj (hcleared.symm.trans hpublication)
      exact ⟨rfl, hretry⟩

theorem Shows.refuse_attends (hshows : producer.Shows topic stored history standing)
    (hattends : ∀ publication, producer.client.publication? topic = some publication →
      producer.client.Attends clock visits (producer.AtEnd topic) publication)
    (hvisit : rest topic) {later : Publication}
    (hlater : (producer.refuse topic moment).client.publication? topic = some later) :
    (producer.refuse topic moment).client.Attends clock rest
      ((producer.refuse topic moment).AtEnd topic) later := by
  unfold refuse at hlater ⊢
  rcases hshows.waiting_cases hattends with
    hnone | ⟨publication, length, hfound, hwaiting, hretry⟩
  · simp only [hnone] at hlater ⊢
    exact (hattends later hlater).visited hlater hvisit
  · simp only [hwaiting] at hlater ⊢
    obtain ⟨-, hcleared⟩ := producer.client.clearOutstanding_spec hfound
      { producer.client.stats with failures := producer.client.stats.failures + 1 }
    refine Client.scheduleRetry_attends (fun found hpublication => ?_) moment hlater
    obtain rfl := Option.some.inj (hcleared.symm.trans hpublication)
    rfl

theorem Shows.handleReply_attends {packet : Packet}
    (hreply : producer.handleReply packet moment = (.ok topic, after))
    (hshows : producer.Shows topic stored history standing)
    (hattends : ∀ publication, producer.client.publication? topic = some publication →
      producer.client.Attends clock visits (producer.AtEnd topic) publication)
    (hvisit : rest topic) {later : Publication} (hlater : after.client.publication? topic = some later) :
    after.client.Attends clock rest (after.AtEnd topic) later := by
  unfold handleReply at hreply
  cases hname : Utf8.decode? packet.topic with
  | none => simp [hname] at hreply
  | some name =>
    simp only [hname] at hreply
    cases packet with
    | publish offset other data => cases hreply
    | ack other =>
      rcases hack : producer.acknowledge name moment with ⟨fault | _, acknowledged⟩
      · simp [hack, Except.map] at hreply
      · simp only [hack, Except.map, Prod.mk.injEq, Except.ok.injEq] at hreply
        obtain ⟨rfl, rfl⟩ := hreply
        exact hshows.acknowledge_attends hattends hack hvisit hlater
    | reset other offset =>
      rcases hreset : producer.reset name offset moment with ⟨fault | _, moved⟩
      · simp [hreset, Except.map] at hreply
      · simp only [hreset, Except.map, Prod.mk.injEq, Except.ok.injEq] at hreply
        obtain ⟨rfl, rfl⟩ := hreply
        exact hshows.reset_attends hattends hreset hvisit hlater
    | failure other =>
      obtain ⟨hsame, rfl⟩ := Prod.mk.inj hreply
      obtain rfl := Except.ok.inj hsame
      exact hshows.refuse_attends hattends hvisit hlater

/-- A publication that was just taken up is about to be looked at, and its client hears of its log. -/
structure Joined (producer : Producer) (publication : Publication) : Prop where
  idle : publication.outstanding = none
  retryAt : publication.retryAt = none
  queued : publication.topic ∈ producer.client.queue
  heard : producer.store.HasListener publication.handle.log (.replicator producer.client.name)

/-- At most publications that were just taken up joined the others. -/
structure Enrols (producer after : Producer) : Prop extends producer.Minds after where
  name : after.client.name = producer.client.name
  joined : ∀ topic publication, after.client.publication? topic = some publication →
    producer.client.publication? topic = some publication ∨ after.Joined publication

theorem Minds.enrols {store : Store} (hretains : producer.store.Retains store) :
    producer.Enrols { producer with store } :=
  ⟨⟨.refl _, hretains⟩, rfl, fun _ _ => Or.inl⟩

theorem Enrols.trans (hfirst : producer.Enrols middle) (hsecond : middle.Enrols after) :
    producer.Enrols after where
  toMinds := hfirst.toMinds.trans hsecond.toMinds
  name := hsecond.name.trans hfirst.name
  joined topic publication hfound := by
    rcases hsecond.joined topic publication hfound with hold | hnew
    · refine (hfirst.joined topic publication hold).imp_right fun hjoined => ?_
      refine ⟨hjoined.idle, hjoined.retryAt, hsecond.client.queue hjoined.queued, ?_⟩
      rw [hsecond.name]
      exact hjoined.heard.carry hsecond.store
    · exact Or.inr hnew

theorem Enrols.refl (producer : Producer) : producer.Enrols producer :=
  ⟨.refl producer, rfl, fun _ _ => Or.inl⟩

/-- A topic that a client takes up is woken, and its log has the client for a listener. -/
theorem add_enrols (hcoalesced : producer.client.Coalesced) (handle : Handle) :
    producer.Enrols { producer with
      client := (producer.client.add producer.store handle).2.1
      store := (producer.client.add producer.store handle).2.2 } := by
  unfold Client.add
  split
  · exact .refl producer
  next log reader hreader =>
    dsimp only
    split
    · exact .refl producer
    · split
      · exact .refl producer
      next hregistered =>
        have hnone : producer.client.publication? log.topic = none := by
          simpa [Option.isSome_iff_ne_none] using hregistered
        obtain ⟨hretains, hheard⟩ := Store.retains_addListener (Store.logs_of_reader? hreader)
          (.replicator producer.client.name)
        rcases hadded : producer.store.addListener handle.log (.replicator producer.client.name) with
          ⟨listener, store⟩
        rw [hadded] at hretains hheard
        let fresh : Publication := { topic := log.topic, handle, listener }
        let joined : Client := { producer.client with
          publications := Client.insertPublication fresh producer.client.publications }
        have hjoined : joined.Coalesced := ⟨hcoalesced.marked, hcoalesced.nodup⟩
        have hnew : producer.client.publication? fresh.topic = none := hnone
        obtain ⟨htouches, hfresh⟩ := Client.insert_spec hnew rfl
        have hname : (joined.wake log.topic).name = producer.client.name :=
          congrArg SyncSettings.clientName htouches.settings
        have hwoken := joined.remembers_wake log.topic
        refine ⟨⟨⟨hwoken.queue, hwoken.timers, fun _ => hwoken.coalesced hjoined⟩,
          Store.Retains.trans hretains (.of_logs_eq rfl)⟩, hname, fun topic publication hfound => ?_⟩
        by_cases htopic : topic = log.topic
        · subst htopic
          obtain rfl := Option.some.inj (hfresh.symm.trans hfound)
          refine Or.inr ⟨rfl, rfl, hjoined.mem_wake log.topic, ?_⟩
          have hkept := hheard.carry (.of_logs_eq rfl)
          exact hname.symm ▸ hkept
        · exact Or.inl ((htouches.others topic htopic).symm.trans hfound)

theorem get_enrols {outcome : Except Fault Nat} {opened : Store}
    (hget : producer.store.get topic = (outcome, opened)) :
    producer.Enrols { producer with store := opened } := by
  have hretains := producer.store.retains_get topic
  rw [hget] at hretains
  exact Minds.enrols hretains

theorem newReader_enrols {opened store : Store} {number : Nat} {outcome : Except Fault Handle}
    (hget : producer.store.get topic = (.ok number, opened)) {name : String} {offset : Nat}
    (hreader : opened.addReader number name offset = (outcome, store)) :
    producer.Enrols { producer with store } := by
  have hretains := opened.retains_addReader number name offset
  rw [hreader] at hretains
  exact (get_enrols hget).trans (Minds.enrols hretains)

theorem register_enrols (hcoalesced : producer.client.Coalesced) (topic : String) (offset : Nat) :
    producer.Enrols (producer.register topic offset).2 := by
  unfold register
  rcases hget : producer.store.get topic with ⟨fault | number, opened⟩
  · exact get_enrols hget
  · simp only [Client.register]
    rcases hreader : opened.addReader number producer.client.name offset with ⟨fault | handle, store⟩
    · exact newReader_enrols hget hreader
    · have hstart : Client.Coalesced (Producer.client { producer with store }) := hcoalesced
      have htaken := (newReader_enrols hget hreader).trans (add_enrols hstart handle)
      dsimp only at htaken ⊢
      rcases hadded : producer.client.add store handle with ⟨fault | _, client, later⟩
      · rw [hadded] at htaken
        exact htaken.trans (Minds.enrols (later.retains_removeReader number handle))
      · rw [hadded] at htaken
        exact htaken

theorem enlist_enrols (hcoalesced : producer.client.Coalesced) (topic name : String) (offset : Nat) :
    producer.Enrols (producer.enlist topic name offset) := by
  unfold enlist
  rcases hget : producer.store.get topic with ⟨fault | number, opened⟩
  · exact get_enrols hget
  · dsimp only
    rcases hreader : opened.addReader number name offset with ⟨fault | handle, store⟩
    · exact newReader_enrols hget hreader
    · have hstart : Client.Coalesced (Producer.client { producer with store }) := hcoalesced
      exact (newReader_enrols hget hreader).trans (add_enrols hstart handle)

end Producer

end ReplicatedLog
