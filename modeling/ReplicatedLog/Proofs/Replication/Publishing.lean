import ReplicatedLog.Proofs.Replication.Standing

namespace ReplicatedLog

namespace Client

variable {client : Client} {topic : String} {publication : Publication}

theorem touches_cursorFailed (client : Client) (topic : String) (fault : Fault) (moment : Moment) :
    client.Touches topic (client.cursorFailed topic fault moment) :=
  (cursorFailed_adjusts client topic fault moment).toTouches

/-- A topic is given up where its reader met a fault for good. -/
theorem publication?_halt (hfound : client.publication? topic = some publication) (fault : Fault)
    (hfatal : fault.isFatal = true) (moment : Moment) :
    (client.cursorFailed topic fault moment).publication? topic =
      some { publication with halted := true } := by
  rw [cursorFailed, if_pos hfatal]
  exact publication?_modify_self (fun _ => rfl) hfound

end Client

namespace Producer

/-- What comes of publishing a topic: nothing, or a piece of history that waits for its reply from
    then on. Its frame may be too long. -/
inductive Publishes (producer : Producer) (topic : String) (stored : StoredLog) (history : Bytes) :
    Option Standing → Except WireFault (Option Bytes) × Producer → Prop
  | nothing {standing : Option Standing} {later : StoredLog} {after : Producer}
      (hturns : producer.Turns topic later history standing after)
      (hfirst : later.log.firstOffset = stored.log.firstOffset) :
      Publishes producer topic stored history standing (.ok none, after)
  | piece {offset length : Nat} {later : StoredLog} {after : Producer}
      {outcome : Except WireFault (Option Bytes)}
      (hturns : producer.Turns topic later history (some ⟨offset, some length⟩) after)
      (hfirst : later.log.firstOffset = stored.log.firstOffset)
      (hstart : stored.log.firstOffset ≤ offset) (hend : offset + length ≤ history.length)
      (hframe : outcome = (Frame.encode (.publish offset (Utf8.encode topic)
        ((history.drop offset).take length))).map some) :
      Publishes producer topic stored history (some ⟨offset, none⟩) (outcome, after)

variable {producer after : Producer} {topic : String} {stored : StoredLog} {history : Bytes}
  {standing : Option Standing}

/-- What comes of looking for the next bytes of a topic. -/
inductive Chooses (producer : Producer) (topic : String) (stored : StoredLog) (history : Bytes) :
    Option Standing → Option Region × Producer → Prop
  | nothing {standing : Option Standing} {later : StoredLog} {after : Producer}
      (hturns : producer.Turns topic later history standing after)
      (hfirst : later.log.firstOffset = stored.log.firstOffset) :
      Chooses producer topic stored history standing (none, after)
  | region {region : Region} {later : StoredLog} {after : Producer}
      (hturns : producer.Turns topic later history (some ⟨region.offset, some region.length⟩) after)
      (hfirst : later.log.firstOffset = stored.log.firstOffset)
      (hstart : stored.log.firstOffset ≤ region.offset) (hwithin : region.Within later.log) :
      Chooses producer topic stored history (some ⟨region.offset, none⟩) (some region, after)

/-- Only the place that was reached is looked at, and only if nothing waits there. -/
theorem Shows.nextPublish_spec (hshows : producer.Shows topic stored history standing)
    (hcoherent : producer.store.Coherent) (moment : Moment) :
    producer.Chooses topic stored history standing (producer.nextPublish topic moment) := by
  have hself := hshows.turns_self hcoherent
  have hstands := hshows.stands
  unfold nextPublish
  cases hfound : producer.client.publication? topic with
  | none => exact .nothing hself rfl
  | some publication =>
    rw [hfound] at hstands
    cases hstands with
    | present hopen htracked hwaits =>
    next cursor =>
      dsimp only
      by_cases hidle : (publication.halted || publication.outstanding.isSome
          || publication.retryAt.any fun due => moment.time < due) = true
      · rw [if_pos hidle]
        exact .nothing hself rfl
      · rw [if_neg hidle]
        simp only [Bool.or_eq_true, not_or, Bool.not_eq_true, Option.isSome_eq_false_iff,
          Option.isNone_iff_eq_none] at hidle
        obtain ⟨⟨hreading, hnone⟩, -⟩ := hidle
        have hfollows := htracked.follows hreading
        have hordered := hshows.keeps.ordered
        obtain ⟨-, parts, hlaid, -⟩ := id hshows.keeps
        have htouches : producer.client.Touches topic
            (producer.client.modify topic fun publication => { publication with retryAt := none }) :=
          Client.touches_modify fun _ => rfl
        have hfresh : (producer.client.modify topic fun publication =>
            { publication with retryAt := none }).publication? topic =
            some { publication with retryAt := none } :=
          Client.publication?_modify_self (fun _ => rfl) hfound
        generalize hlimit : (producer.client.modify topic fun publication =>
          { publication with retryAt := none }).settings.chunkSize = limit
        obtain ⟨store, hcursor, -, hupdates⟩ := hcoherent.onCursor_spec hopen hshows.current
          htracked.found fun topic dir cursor => cursor.nextRegion topic dir limit
        have hspec := Cursor.nextRegion_spec hlaid hfollows topic limit
        rcases hregion : cursor.nextRegion topic stored.dir limit with ⟨outcome, moved⟩
        rw [hregion] at hspec hcursor hupdates
        simp only [hcursor]
        rw [hnone] at hself ⊢
        cases hspec with
        | gap hoffset hmax =>
        next gap =>
          refine .nothing (hshows.turns_setCursor htracked hopen hupdates
            (htouches.trans (Client.touches_cursorFailed _ topic (.discontinuity gap) moment)) hmax
            (hoffset.trans_le htracked.bounded) hoffset
            ⟨_, Client.publication?_halt hfresh (.discontinuity gap) rfl moment, rfl, hnone, by simp,
              by simp⟩) ?_
          rfl
        | ok hmoved hoffset hholds =>
        next region? =>
          have hbounded := hmoved.offset_le hordered
          have hmax := hmoved.maxOffset_eq
          cases region? with
          | none =>
            refine .nothing (hshows.turns_setCursor htracked hopen hupdates htouches hmax hbounded
              hoffset ⟨_, hfresh, rfl, hnone, fun _ => hmoved, by simp⟩) ?_
            rfl
          | some region =>
            obtain ⟨hwithin, hplace, hlength, -⟩ := hholds
            have hlong : region.length ≤ moved.available := hlength.trans_le (min_le_left _ _)
            have hwaits : ∀ length, some region.length = some length →
                publication.halted = false ∧ length ≤ moved.available := by
              rintro length ⟨⟩
              exact ⟨hreading, hlong⟩
            rw [← hoffset, ← hplace]
            refine .region (hshows.turns_setCursor htracked hopen hupdates
              (htouches.trans (Client.touches_modify (by simp))) hmax hbounded hplace.symm
              ⟨_, Client.publication?_modify_self (by simp) hfresh, rfl, rfl, fun _ => hmoved,
                hwaits⟩) ?_ ?_ ?_
            · rfl
            · exact hplace ▸ hmoved.firstOffset_le hordered
            · exact ⟨hwithin.placed, hwithin.position⟩

/-- What is published is a piece of history from the place that was reached. -/
theorem Shows.publish_spec (hshows : producer.Shows topic stored history standing)
    (hcoherent : producer.store.Coherent) (moment : Moment) :
    producer.Publishes topic stored history standing (producer.publish topic moment) := by
  have hspec := hshows.nextPublish_spec hcoherent moment
  unfold publish
  rcases hnext : producer.nextPublish topic moment with ⟨region?, after⟩
  rw [hnext] at hspec
  cases hspec with
  | nothing hturns hfirst => exact .nothing hturns hfirst
  | region hturns hfirst hstart hwithin =>
  next region later =>
    have hdir := (hturns.updates.coherent.topic_of_current hturns.shows.current).2
    obtain ⟨hread, hend⟩ := hturns.shows.keeps.readRegion_eq hwithin
    simp only [← hdir, hread, finishRead]
    cases hframe : Frame.encode (.publish region.offset (Utf8.encode topic)
        ((history.drop region.offset).take region.length)) with
    | error fault => exact .piece hturns hfirst hstart hend (by rw [hframe]; rfl)
    | ok frame =>
      exact .piece (hturns.congr rfl rfl rfl) hfirst hstart hend (by rw [hframe]; rfl)

theorem sinks_nextPublish (producer : Producer) (topic : String) (moment : Moment) :
    (producer.nextPublish topic moment).2.sinks = producer.sinks := by
  unfold nextPublish
  split
  · rfl
  · split
    · rfl
    · dsimp only
      split <;> rfl

theorem sinks_finishRead (producer : Producer) (topic : String) (moment : Moment) (region : Region)
    (outcome : Except IoFault Bytes) :
    (producer.finishRead topic moment region outcome).2.sinks = producer.sinks := by
  unfold finishRead
  cases outcome with
  | error fault => rfl
  | ok data =>
    dsimp only
    split <;> rfl

theorem sinks_publish (producer : Producer) (topic : String) (moment : Moment) :
    (producer.publish topic moment).2.sinks = producer.sinks := by
  have hsinks := producer.sinks_nextPublish topic moment
  unfold publish
  rcases hnext : producer.nextPublish topic moment with ⟨_ | region, after⟩
  · rw [hnext] at hsinks
    exact hsinks
  · rw [hnext] at hsinks
    exact (after.sinks_finishRead topic moment region _).trans hsinks

/-- Nothing is published of a topic that is not replicated. -/
theorem publish_of_none {producer : Producer} {topic : String}
    (hnone : producer.client.publication? topic = none) (moment : Moment) :
    producer.publish topic moment = (.ok none, producer) := by
  simp only [publish, nextPublish, hnone]

end Producer

end ReplicatedLog
