import ReplicatedLog.Proofs.Replication.ConnectionLoop
import ReplicatedLog.Proofs.Replication.Replies
import ReplicatedLog.Proofs.Store.Posts

namespace ReplicatedLog

/-- A publication later on. What was given up stays so, and does not wait for a reply. -/
structure Publication.Heir (publication later : Publication) : Prop where
  handle : later.handle = publication.handle
  halted : publication.halted = true → later.halted = true
  idle : (publication.halted = true → publication.outstanding = none) →
    later.halted = true → later.outstanding = none

namespace Publication.Heir

variable {publication middle later : Publication}

theorem refl (publication : Publication) : publication.Heir publication :=
  ⟨rfl, id, id⟩

theorem trans (hfirst : publication.Heir middle) (hsecond : middle.Heir later) :
    publication.Heir later where
  handle := hsecond.handle.trans hfirst.handle
  halted hhalted := hsecond.halted (hfirst.halted hhalted)
  idle hidle := hsecond.idle (hfirst.idle hidle)

/-- A publication that waits for nothing may be given up. -/
theorem of_idle (hhandle : later.handle = publication.handle)
    (hhalted : publication.halted = true → later.halted = true) (hidle : later.outstanding = none) :
    publication.Heir later :=
  ⟨hhandle, hhalted, fun _ _ => hidle⟩

end Publication.Heir

namespace Client

variable {client middle after : Client} {topic : String} {publication : Publication}
  {change : Publication → Publication}

/-- Only the publication of one topic changed, and it has an heir. -/
structure Hands (client : Client) (topic : String) (after : Client) : Prop
    extends client.Touches topic after where
  heir : ∀ publication, client.publication? topic = some publication →
    ∃ later, after.publication? topic = some later ∧ publication.Heir later
  none : client.publication? topic = none → after.publication? topic = none

/-- Nothing is to come back from the service for a topic. -/
def Idle (client : Client) (topic : String) : Prop :=
  ∀ publication, client.publication? topic = some publication → publication.outstanding = none

theorem hands_of_publications (hpublications : after.publications = client.publications)
    (hsettings : after.settings = client.settings) : client.Hands topic after where
  toTouches := (Touches.refl client topic).congr hpublications hsettings
  heir publication hfound :=
    ⟨publication, (publication?_congr hpublications topic).trans hfound, .refl publication⟩
  none hnone := (publication?_congr hpublications topic).trans hnone

theorem Hands.trans (hfirst : client.Hands topic middle) (hsecond : middle.Hands topic after) :
    client.Hands topic after where
  toTouches := hfirst.toTouches.trans hsecond.toTouches
  heir publication hfound := by
    obtain ⟨between, hbetween, hheir⟩ := hfirst.heir publication hfound
    obtain ⟨later, hlater, hnext⟩ := hsecond.heir between hbetween
    exact ⟨later, hlater, hheir.trans hnext⟩
  none hnone := hsecond.none (hfirst.none hnone)

theorem hands_modify (hchange : ∀ publication, (change publication).topic = publication.topic)
    (hheir : ∀ publication, client.publication? topic = some publication →
      publication.Heir (change publication)) : client.Hands topic (client.modify topic change) where
  toTouches := touches_modify hchange
  heir publication hfound :=
    ⟨_, publication?_modify_self hchange hfound, hheir publication hfound⟩
  none hnone := by rw [modify_of_none hnone, hnone]

theorem idle_modify (hchange : ∀ publication, (change publication).topic = publication.topic)
    (hidle : ∀ publication, client.publication? topic = some publication →
      (change publication).outstanding = none) : (client.modify topic change).Idle topic := by
  intro later hlater
  rw [publication?_modify hchange] at hlater
  obtain ⟨publication, hfound, rfl⟩ := Option.map_eq_some_iff.mp hlater
  rw [if_pos (mem_of_publication? hfound).2]
  exact hidle publication hfound

theorem hands_scheduleRetry (hidle : client.Idle topic) (moment : Moment) :
    client.Hands topic (client.scheduleRetry topic moment) := by
  unfold scheduleRetry
  split
  · exact hands_of_publications rfl rfl
  · dsimp only
    split
    · have hretried (failures due : Nat) : client.Hands topic (client.modify topic fun publication =>
          { publication with failures, retryAt := some due }) :=
        hands_modify (fun _ => rfl) fun publication hfound =>
          .of_idle rfl id (hidle publication hfound)
      exact (hretried _ _).trans (hands_of_publications rfl rfl)
    · exact hands_modify (fun _ => rfl) fun publication hfound =>
        .of_idle rfl (fun _ => rfl) (hidle publication hfound)

theorem hands_cursorFailed (hidle : client.Idle topic) (fault : Fault) (moment : Moment) :
    client.Hands topic (client.cursorFailed topic fault moment) := by
  unfold cursorFailed
  split
  · exact hands_modify (fun _ => rfl) fun publication hfound =>
      .of_idle rfl (fun _ => rfl) (hidle publication hfound)
  · exact hands_scheduleRetry hidle moment

/-- After a reply a topic waits for nothing. -/
theorem hands_settle (client : Client) (topic : String) (change : Publication → Publication)
    (hchange : ∀ publication, (change publication).topic = publication.topic ∧
      (change publication).handle = publication.handle ∧
      (change publication).halted = publication.halted ∧ (change publication).outstanding = none) :
    client.Hands topic (client.modify topic change) ∧ (client.modify topic change).Idle topic := by
  have htopic : ∀ publication, (change publication).topic = publication.topic :=
    fun publication => (hchange publication).1
  refine ⟨hands_modify htopic fun publication _ => ?_, idle_modify htopic fun publication _ => ?_⟩
  · obtain ⟨-, hhandle, hhalted, hnone⟩ := hchange publication
    exact .of_idle hhandle (fun hgone => hhalted.trans hgone) hnone
  · exact (hchange publication).2.2.2

theorem hands_clearOutstanding (client : Client) (topic : String) :
    client.Hands topic (client.clearOutstanding topic) ∧
      (client.clearOutstanding topic).Idle topic :=
  client.hands_settle topic _ fun _ => ⟨rfl, rfl, rfl, rfl⟩

theorem hands_count (client : Client) (topic : String) (stats : ClientStats) :
    client.Hands topic { client with stats } :=
  hands_of_publications rfl rfl

theorem outstanding?_eq_some {length : Nat}
    (hwaiting : client.outstanding? topic = some (publication, length)) :
    client.publication? topic = some publication ∧ publication.outstanding = some length := by
  obtain ⟨found, hfound, hlength⟩ := Option.bind_eq_some_iff.mp hwaiting
  obtain ⟨other, hother, hsame⟩ := Option.bind_eq_some_iff.mp hlength
  obtain ⟨rfl, rfl⟩ := Prod.mk.inj (Option.some.inj hsame)
  exact ⟨hfound, hother⟩

end Client

namespace Producer

variable {producer middle after : Producer} {topic : String} {moved : Option Handle}
  {publication : Publication} {moment : Moment}

/-- A step that concerns one topic. It changes the publication of the topic and the log that it reads,
    and moves no reader but one at most. -/
structure Concerns (producer : Producer) (topic : String) (moved : Option Handle)
    (after : Producer) : Prop where
  client : producer.client.Hands topic after.client
  store : producer.store.MovesOnly moved after.store
  logs : ∀ number, (∀ publication, producer.client.publication? topic = some publication →
    number ≠ publication.handle.log) → after.store.logs[number]? = producer.store.logs[number]?

/-- The reader that a reply for a topic may move. -/
def moved? (producer : Producer) (topic : String) : Option Handle :=
  (producer.client.outstanding? topic).map (·.1.handle)

theorem concerns_of_client (hidentified : producer.store.Identified) {client : Client}
    {sinks : List Sink} (hclient : producer.client.Hands topic client) :
    producer.Concerns topic moved { producer with client, sinks } :=
  ⟨hclient, .of_logs_eq hidentified rfl, fun _ _ => rfl⟩

theorem concerns_refl (hidentified : producer.store.Identified) (topic : String) :
    producer.Concerns topic moved producer :=
  concerns_of_client hidentified (Client.hands_of_publications rfl rfl)

/-- Work on the reader of a topic stays within the log of the topic. -/
theorem concerns_of_onCursor (hidentified : producer.store.Identified)
    (hfound : producer.client.publication? topic = some publication) {α : Type}
    {work : String → Directory → Cursor → Except Fault α × Cursor}
    (hmoved : moved = some publication.handle ∨
      ∀ topic dir cursor, (work topic dir cursor).2.offset = cursor.offset)
    {outcome : Except Fault α} {store : Store}
    (hwork : producer.store.onCursor publication.handle work = (outcome, store)) {client : Client}
    {sinks : List Sink} (hclient : producer.client.Hands topic client) :
    producer.Concerns topic moved { store, client, sinks } := by
  have hstore := Store.movesOnly_onCursor hidentified publication.handle hmoved
  rw [hwork] at hstore
  refine ⟨hclient, hstore, fun number hother => ?_⟩
  have hlogs := producer.store.logs_onCursor publication.handle work (hother publication hfound)
  rwa [hwork] at hlogs

theorem nextPublish_concerns (hidentified : producer.store.Identified) (topic : String)
    (moment : Moment) : producer.Concerns topic moved (producer.nextPublish topic moment).2 := by
  unfold nextPublish
  cases hfound : producer.client.publication? topic with
  | none => exact concerns_refl hidentified topic
  | some publication =>
    dsimp only
    split
    · exact concerns_refl hidentified topic
    next hready =>
      simp only [Bool.or_eq_true, not_or, Bool.not_eq_true, Option.isSome_eq_false_iff,
        Option.isNone_iff_eq_none] at hready
      obtain ⟨⟨hreading, hidle⟩, -⟩ := hready
      have hsame : ∀ found, producer.client.publication? topic = some found → found = publication :=
        fun found hother => Option.some.inj (hother.symm.trans hfound)
      have hretried : producer.client.Hands topic (producer.client.modify topic fun publication =>
          { publication with retryAt := none }) :=
        Client.hands_modify (fun _ => rfl) fun _ _ => ⟨rfl, id, id⟩
      have hwaits : (producer.client.modify topic fun publication =>
          { publication with retryAt := none }).Idle topic :=
        Client.idle_modify (fun _ => rfl) fun found hother => hsame found hother ▸ hidle
      have hregion : ∀ topic dir cursor, (Cursor.nextRegion topic dir cursor
          producer.client.settings.chunkSize).2.offset = cursor.offset :=
        fun topic dir cursor => cursor.offset_nextRegion topic dir _
      split
      next fault store hcursor =>
        exact concerns_of_onCursor hidentified hfound (Or.inr hregion) hcursor
          (hretried.trans (Client.hands_cursorFailed hwaits fault moment))
      next store hcursor =>
        exact concerns_of_onCursor hidentified hfound (Or.inr hregion) hcursor hretried
      next region store hcursor =>
        refine concerns_of_onCursor hidentified hfound (Or.inr hregion) hcursor
          (hretried.trans (Client.hands_modify (fun _ => rfl) fun found hother => ?_))
        have hstill : found.halted = false := by
          rw [Client.publication?_modify_self (by simp) hfound] at hother
          rw [← Option.some.inj hother]
          exact hreading
        exact ⟨rfl, id, fun _ hhalted => by simp [hstill] at hhalted⟩

/-- A topic that has bytes to be published was not given up. -/
theorem nextPublish_reading {region : Region}
    (hnext : producer.nextPublish topic moment = (some region, after))
    (hlater : after.client.publication? topic = some publication) : publication.halted = false := by
  unfold nextPublish at hnext
  split at hnext
  · cases hnext
  next found hfound =>
    split at hnext
    · cases hnext
    next hready =>
      simp only [Bool.or_eq_true, not_or, Bool.not_eq_true] at hready
      dsimp only at hnext
      split at hnext
      · cases hnext
      · cases hnext
      · obtain ⟨-, rfl⟩ := Prod.mk.inj hnext
        dsimp only at hlater
        rw [Client.publication?_modify_self (by simp)
          (Client.publication?_modify_self (by simp) hfound)] at hlater
        rw [← Option.some.inj hlater]
        exact hready.1.1

theorem finishRead_concerns (hidentified : producer.store.Identified) (topic : String) (moment : Moment)
    (region : Region) (outcome : Except IoFault Bytes) :
    producer.Concerns topic moved (producer.finishRead topic moment region outcome).2 := by
  unfold finishRead
  cases outcome with
  | error fault =>
    obtain ⟨hcleared, hidle⟩ := producer.client.hands_clearOutstanding topic
    exact concerns_of_client hidentified (hcleared.trans (Client.hands_scheduleRetry hidle moment))
  | ok data =>
    dsimp only
    split
    · exact concerns_refl hidentified topic
    · exact concerns_of_client hidentified (Client.hands_of_publications rfl rfl)

theorem acknowledge_concerns (hidentified : producer.store.Identified) (topic : String)
    (moment : Moment) :
    producer.Concerns topic (producer.moved? topic) (producer.acknowledge topic moment).2 := by
  unfold acknowledge moved?
  cases hwaiting : producer.client.outstanding? topic with
  | none => exact concerns_refl hidentified topic
  | some waiting =>
    obtain ⟨publication, length⟩ := waiting
    obtain ⟨hfound, -⟩ := Client.outstanding?_eq_some hwaiting
    dsimp only
    split
    · exact concerns_of_client hidentified (Client.hands_of_publications rfl rfl)
    · rcases hcursor : producer.store.onCursor publication.handle fun topic dir cursor =>
        cursor.consume topic dir length with ⟨outcome, store⟩
      have hcounted := producer.client.hands_count topic
        { producer.client.stats with acks := producer.client.stats.acks + 1 }
      obtain ⟨hcleared, hidle⟩ := Client.hands_settle { producer.client with
          stats := { producer.client.stats with acks := producer.client.stats.acks + 1 } } topic
        (fun publication => { publication with outstanding := none, failures := 0 })
        fun _ => ⟨rfl, rfl, rfl, rfl⟩
      refine concerns_of_onCursor hidentified hfound (Or.inl rfl) hcursor
        (hcounted.trans (hcleared.trans ?_))
      split
      · exact Client.hands_modify (by simp) fun found hother =>
          .of_idle rfl id (hidle found hother)
      · exact Client.hands_cursorFailed hidle _ moment

theorem reset_concerns (hidentified : producer.store.Identified) (topic : String)
    (offset : Nat) (moment : Moment) :
    producer.Concerns topic (producer.moved? topic) (producer.reset topic offset moment).2 := by
  unfold reset moved?
  cases hwaiting : producer.client.outstanding? topic with
  | none => exact concerns_refl hidentified topic
  | some waiting =>
    obtain ⟨publication, length⟩ := waiting
    obtain ⟨hfound, -⟩ := Client.outstanding?_eq_some hwaiting
    have hcounted := producer.client.hands_count topic
      { producer.client.stats with resets := producer.client.stats.resets + 1 }
    dsimp only
    split
    · exact concerns_of_client hidentified hcounted
    · dsimp only
      obtain ⟨hcleared, hidle⟩ := Client.hands_clearOutstanding { producer.client with
        stats := { producer.client.stats with resets := producer.client.stats.resets + 1 } } topic
      refine ⟨hcounted.trans (hcleared.trans ?_),
        Store.movesOnly_seek hidentified publication.handle offset, fun number hother =>
          producer.store.logs_seek publication.handle offset (hother publication hfound)⟩
      split
      · exact Client.hands_of_publications rfl rfl
      · exact Client.hands_cursorFailed hidle _ moment

theorem refuse_concerns (hidentified : producer.store.Identified) (topic : String) (moment : Moment) :
    producer.Concerns topic moved (producer.refuse topic moment) := by
  unfold refuse
  split
  · exact concerns_refl hidentified topic
  · obtain ⟨hcleared, hidle⟩ := Client.hands_clearOutstanding { producer.client with
      stats := { producer.client.stats with failures := producer.client.stats.failures + 1 } } topic
    have hcounted := producer.client.hands_count topic
      { producer.client.stats with failures := producer.client.stats.failures + 1 }
    exact concerns_of_client hidentified
      (hcounted.trans (hcleared.trans (Client.hands_scheduleRetry hidle moment)))

/-- A reply concerns the topic that it names. -/
theorem handleReply_concerns (hidentified : producer.store.Identified) {packet : Packet}
    (hname : Utf8.decode? packet.topic = some topic) (moment : Moment) :
    producer.Concerns topic (producer.moved? topic) (producer.handleReply packet moment).2 := by
  unfold handleReply
  rw [hname]
  cases packet with
  | publish => exact concerns_refl hidentified topic
  | ack => exact acknowledge_concerns hidentified topic moment
  | reset => exact reset_concerns hidentified topic _ moment
  | failure => exact refuse_concerns hidentified topic moment

/-- Two steps that concern the same topic. -/
theorem Concerns.trans (hfirst : producer.Concerns topic moved middle)
    (hsecond : middle.Concerns topic moved after) : producer.Concerns topic moved after where
  client := hfirst.client.trans hsecond.client
  store := hfirst.store.trans hsecond.store
  logs number hother := by
    -- The topic keeps its reader, so the second step stays in the log of the first one.
    refine (hsecond.logs number fun between hbetween => ?_).trans (hfirst.logs number hother)
    cases hfound : producer.client.publication? topic with
    | none =>
      have hnone := hfirst.client.none hfound
      rw [hnone] at hbetween
      cases hbetween
    | some publication =>
      obtain ⟨later, hlater, hheir⟩ := hfirst.client.heir publication hfound
      obtain rfl := Option.some.inj (hlater.symm.trans hbetween)
      rw [hheir.handle]
      exact hother publication hfound

end Producer

end ReplicatedLog
