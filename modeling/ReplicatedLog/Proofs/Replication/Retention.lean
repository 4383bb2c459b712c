import ReplicatedLog.Proofs.Replication.Fidelity
import ReplicatedLog.Proofs.Replication.Halting

namespace ReplicatedLog

/-- A cursor in a log whose segments are contiguous meets no other fault than a gap. -/
theorem Cursor.Moves.exists_gap {α : Type} {log : TopicLog} {offset : Nat}
    {Holds : α → Cursor → Prop} {result : Except Fault α × Cursor} {fault : Fault}
    (hmoves : Moves log offset Holds result) (hfault : result.1 = .error fault) :
    ∃ gap, fault = .discontinuity gap := by
  cases hmoves with
  | gap => exact ⟨_, (Except.error.inj hfault).symm⟩
  | ok => cases hfault

namespace System

variable {volume other : Volume} {settings : SyncSettings} {sinks : List Sink} {rollSize : Nat}
  {first floor : String → Nat} {history received : String → Bytes} {actions : List Action}
  {system : System} {topic : String} {publishes replies : List Packet}
  {exchanges : String → Exchange}

/-- Nothing of a topic is cleaned up before the client took it up. -/
def Guards (system : System) : Action → Prop
  | .cleanup topic _ _ | .cleanupAll topic _ _ _ =>
    system.producer.client.publication? topic ≠ none
  | _ => True

/-- What arrives next is the first of the replies under way. -/
theorem Reflects.replies_of_incoming (hreflects : system.Reflects publishes replies exchanges)
    {packet : Packet} (hincoming : system.incoming? = some packet) :
    ∃ back, replies = packet :: back := by
  have hflight := hreflects.flight
  unfold incoming? at hincoming
  rcases hreflects.sound.linked with ⟨hlink, -, -⟩ | ⟨hlink, -⟩
  · simp [hlink] at hincoming
  · cases hreplies : system.replies with
    | nil => simp [hlink, hreplies] at hincoming
    | cons bytes rest =>
      rw [hreplies] at hflight
      obtain ⟨reply, back, topic, rfl, hreply, hframe⟩ := hflight.exists_reply
      obtain ⟨rfl, hlength, -⟩ := Frame.encode_eq_ok hframe
      have hnext := FrameReader.nextBody_feed_wrap hlength
      simp only [hlink, hreplies, hnext, FrameReader.packetOf, Packet.decode_layout hreply.encodable]
        at hincoming
      obtain rfl := Option.some.inj hincoming
      exact ⟨back, rfl⟩

theorem Reflects.standing_eq_none_iff (hreflects : system.Reflects publishes replies exchanges)
    (hshort : topic.utf8ByteSize ≤ maxNameLength) :
    (exchanges topic).standing = none ↔ system.producer.client.publication? topic = none := by
  obtain ⟨stored, hstored, -⟩ := (hreflects.shows topic hshort).producer
  have hstands := hstored.stands
  generalize (exchanges topic).standing = standing at hstands
  generalize system.producer.client.publication? topic = publication? at hstands
  cases hstands with
  | absent => simp
  | present => simp

/-- What the client still has of a topic starts where it did until the topic is taken up. -/
theorem Reflects.guarded_step (hreflects : system.Reflects publishes replies exchanges)
    (hshort : topic.utf8ByteSize ≤ maxNameLength) {action : Action}
    (hallowed : system.Anchors action ∧ system.Guards action) {start : Nat} {after : Exchange}
    (hbefore : (exchanges topic).standing = none → (exchanges topic).first = start)
    (hstep : (exchanges topic).Step topic action after) (hnone : after.standing = none) :
    after.first = start := by
  obtain ⟨hanchors, hguards⟩ := hallowed
  have hstays : ∀ handle, action ≠ .remove handle := by
    rintro handle rfl
    exact hanchors
  have hcleans : (exchanges topic).standing = none →
      (∀ retain now, action ≠ .cleanup topic retain now) ∧
        ∀ retain external now, action ≠ .cleanupAll topic retain external now := by
    intro hsilent
    have habsent := (hreflects.standing_eq_none_iff hshort).mp hsilent
    constructor
    · rintro retain now rfl
      exact hguards habsent
    · rintro retain external now rfl
      exact hguards habsent
  obtain ⟨hsilent, hsame⟩ := hstep.first_eq hstays hcleans hnone
  exact hsame.trans (hbefore hsilent)

/-- The service asks for bytes that the client has. -/
theorem Reflects.seek_of_reset (hreflects : system.Reflects publishes replies exchanges)
    (hshort : topic.utf8ByteSize ≤ maxNameLength) (hcredited : (exchanges topic).Credited)
    (hanchored : (exchanges topic).Anchored) {publication : Publication} {length place : Nat}
    (hwaiting : system.producer.client.outstanding? topic = some (publication, length))
    (hincoming : system.incoming? = some (.reset (Utf8.encode topic) place)) :
    (system.producer.store.seek publication.handle place).1 = .ok () := by
  obtain ⟨⟨stored, hstored, hfirst⟩, -, habout, -⟩ := hreflects.shows topic hshort
  obtain ⟨back, rfl⟩ := hreflects.replies_of_incoming hincoming
  have hname : Packet.topic (.reset (Utf8.encode topic) place) = Utf8.encode topic := rfl
  rw [List.cons_append, Packet.about_cons_self hname] at habout
  rcases hstored.outstanding_cases with ⟨hnone, -⟩ | ⟨found, cursor, count, -, hfound, -, -, hopen,
    htracked, -, hplace⟩
  · rw [hnone] at hwaiting
    cases hwaiting
  · obtain ⟨rfl, rfl⟩ := Prod.mk.inj (Option.some.inj (hfound.symm.trans hwaiting))
    have hstart := hanchored.start _ _ hplace
    have hlower := hanchored.resets _ _ (Utf8.encode topic) place hplace (by simp [habout])
    have hupper := (hcredited.claims_le habout trivial hplace).2 place rfl
    have hreceived := (hreflects.faithful topic hshort).received.length_le
    obtain ⟨moved, hmoved⟩ := Cursor.exists_place (hfirst.trans_le (hstart.trans hlower))
      ((hupper.trans hreceived).trans hstored.keeps.1.le)
    rcases hreflects.sound.producer.seek_spec hopen hstored.current htracked.found place with
      ⟨fault, hfault, -⟩ | ⟨_, after, -, hseek, -⟩
    · rw [hmoved] at hfault
      cases hfault
    · rw [hseek]

/-- The client never looks for bytes that it lost or never had. -/
theorem Reflects.exists_gap_of_meets (hreflects : system.Reflects publishes replies exchanges)
    (hshort : topic.utf8ByteSize ≤ maxNameLength) (hcredited : (exchanges topic).Credited)
    (hanchored : (exchanges topic).Anchored) {fault : Fault}
    (hmeets : system.producer.Meets system.incoming? topic fault) :
    ∃ gap, fault = .discontinuity gap := by
  obtain ⟨stored, hstored, -⟩ := (hreflects.shows topic hshort).producer
  obtain ⟨-, parts, hlaid, -⟩ := id hstored.keeps
  have hcoherent := hreflects.sound.producer
  cases hmeets with
  | publishing hfound hreading hfault =>
    have hstands := hstored.stands
    rw [hfound] at hstands
    generalize (exchanges topic).standing = standing at hstands
    cases hstands with
    | present hopen htracked hwaits =>
      obtain ⟨after, hcursor, -⟩ := hcoherent.onCursor_spec hopen hstored.current htracked.found
        fun topic dir cursor =>
          cursor.nextRegion topic dir system.producer.client.settings.chunkSize
      rw [hcursor] at hfault
      exact (Cursor.nextRegion_spec hlaid (htracked.follows hreading) topic _).exists_gap hfault
  | acknowledged hwaiting hfault =>
    rcases hstored.outstanding_cases with ⟨hnone, -⟩ | ⟨found, cursor, count, -, hfound, -, hreading,
      hopen, htracked, hlong, -⟩
    · rw [hnone] at hwaiting
      cases hwaiting
    · obtain ⟨rfl, rfl⟩ := Prod.mk.inj (Option.some.inj (hfound.symm.trans hwaiting))
      obtain ⟨after, hcursor, -⟩ := hcoherent.onCursor_spec hopen hstored.current htracked.found
        fun topic dir cursor => cursor.consume topic dir count
      rw [hcursor] at hfault
      exact (Cursor.consume_spec hlaid (htracked.follows hreading) hlong topic).exists_gap hfault
  | reset hwaiting hincoming hfault =>
    rw [hreflects.seek_of_reset hshort hcredited hanchored hwaiting hincoming] at hfault
    cases hfault

/-- After any run in which topics are taken up within reach of the service and cleaned up only then,
    the service has every byte that the client cleaned up, and the client has every byte that the
    service may ask for. So no topic is given up for an offset that the client lost or never had. What
    `cleanupAll` is told that others know does not matter. -/
theorem Run.retains (hclient : volume.Stores first history) (hservice : other.Stores floor received)
    (hleads : ∀ topic, topic.utf8ByteSize ≤ maxNameLength → received topic <+: history topic)
    (hrun : Run (fun system action => system.Anchors action ∧ system.Guards action)
      (start volume other settings sinks rollSize) actions system)
    (hvalid : Topic.IsValid topic) (hshort : topic.utf8ByteSize ≤ maxNameLength) :
    ∃ stored kept, system.producer.store.current topic = .ok stored ∧
      system.peer.service.store.current topic = .ok kept ∧
      stored.Holds stored.log.firstOffset (history topic ++ added topic actions) ∧
      kept.Holds (floor topic) ((history topic ++ added topic actions).take kept.log.maxOffset) ∧
      (∀ offset, first topic ≤ offset → offset < stored.log.firstOffset →
        offset < kept.log.maxOffset) ∧
      (∀ publication length place,
        system.producer.client.outstanding? topic = some (publication, length) →
        system.incoming? = some (.reset (Utf8.encode topic) place) →
        (system.producer.store.seek publication.handle place).1 = .ok ()) ∧
      (∀ fault, system.producer.Meets system.incoming? topic fault →
        ∃ gap, fault = .discontinuity gap) ∧
      ∀ action, (system.perform action).producer.client.Halts topic →
        system.producer.client.Halts topic ∨ system.producer.client.Spent topic ∨
          ∃ gap, system.producer.Meets system.incoming? topic (.discontinuity gap) := by
  obtain ⟨publishes, replies, exchanges, hreflects, ⟨⟨hcredited, hanchored⟩, huntouched⟩, hfloor,
      hadded⟩ :=
    hrun.exchange (.start hclient hservice hleads settings sinks rollSize) hshort
      (fun exchange => (exchange.Credited ∧ exchange.Anchored) ∧
        (exchange.standing = none → exchange.first = first topic))
      ⟨fresh_anchored sinks first floor history received topic, fun _ => rfl⟩
      fun action after hreflects hallowed hbefore hstep =>
        ⟨hreflects.anchored_step hshort hallowed.1 hbefore.1 hstep,
          hreflects.guarded_step hshort hallowed hbefore.2 hstep⟩
  obtain ⟨stored, kept, hstored, hkept, hfirst, hmax, hholds, hserved⟩ := hreflects.exists_holds hshort
  have hall : (exchanges topic).history = history topic ++ added topic actions := hadded hvalid
  have hstart : (exchanges topic).floor = floor topic := hfloor
  rw [hall] at hholds
  rw [hall, hstart] at hserved
  refine ⟨stored, kept, hstored, hkept, hholds, hserved, fun offset hbegin hgone => ?_,
    fun _ _ _ => hreflects.seek_of_reset hshort hcredited hanchored,
    fun _ => hreflects.exists_gap_of_meets hshort hcredited hanchored, fun action hhalts => ?_⟩
  · rw [hmax]
    rw [hfirst] at hgone
    cases hplace : (exchanges topic).standing with
    | none =>
      rw [huntouched hplace] at hgone
      omega
    | some place => exact hgone.trans_le (hanchored.place place hplace).2
  · rcases system.perform_givesUp action topic hhalts with hbefore | hspent | ⟨fault, hmeets, -⟩
    · exact Or.inl hbefore
    · exact Or.inr (Or.inl hspent)
    · obtain ⟨gap, rfl⟩ := hreflects.exists_gap_of_meets hshort hcredited hanchored hmeets
      exact Or.inr (Or.inr ⟨gap, hmeets⟩)

/-- Two segments are appended and the first is acknowledged, so that it can be cleaned up. -/
theorem retains_after_cleanup :
    let system := [.append "t" [1, 2, 3] 2 ⟨0, 0⟩, .append "t" [4] 2 ⟨0, 0⟩, .register "t" 0, .connect,
      .publish "t" ⟨0, 0⟩, .serve 0, .deliver ⟨0, 0⟩, .cleanup "t" 0 ⟨9, 0⟩].foldl perform
        (start {} {} {} [] 1000)
    ∃ stored kept, system.producer.store.current "t" = .ok stored ∧
      system.peer.service.store.current "t" = .ok kept ∧ stored.log.firstOffset = 3 ∧
      ∀ offset, 0 ≤ offset → offset < stored.log.firstOffset → offset < kept.log.maxOffset := by
  intro system
  have hstart : Run (fun system action => system.Anchors action ∧ system.Guards action)
      (start {} {} {} [] 1000) [] (start {} {} {} [] 1000) := .refl
  have happended := (hstart.step (.append "t" [1, 2, 3] 2 ⟨0, 0⟩) ⟨by decide, by decide,
    fun stored hstored => by
      obtain rfl := Except.ok.inj hstored
      decide⟩ ⟨trivial, trivial⟩).step (.append "t" [4] 2 ⟨0, 0⟩) ⟨by decide, by decide,
    fun stored hstored => by
      obtain rfl := Except.ok.inj hstored
      decide +kernel⟩ ⟨trivial, trivial⟩
  have hregistered := happended.step (.register "t" 0) (by unfold Fits; decide)
    ⟨fun _ _ => Nat.zero_le _, trivial⟩
  have hpublished := (hregistered.step .connect trivial ⟨trivial, trivial⟩).step (.publish "t" ⟨0, 0⟩)
    trivial ⟨trivial, trivial⟩
  have hanswered := (hpublished.step (.serve 0) (by unfold Fits; decide) ⟨trivial, trivial⟩).step
    (.deliver ⟨0, 0⟩) trivial ⟨trivial, trivial⟩
  have hrun := hanswered.step (.cleanup "t" 0 ⟨9, 0⟩) (by unfold Fits; decide)
    ⟨trivial, by unfold Guards; decide +kernel⟩
  obtain ⟨stored, kept, hstored, hkept, -, -, hgone, -⟩ := hrun.retains Volume.stores_empty
    Volume.stores_empty (fun _ _ => List.prefix_refl _) (show Topic.IsValid "t" by decide) (by decide)
  have hfirst : (system.producer.store.current "t").toOption.map (·.log.firstOffset) = some 3 := by
    decide +kernel
  rw [show system.producer.store.current "t" = .ok stored from hstored] at hfirst
  exact ⟨stored, kept, hstored, hkept, Option.some.inj hfirst, hgone⟩

end System

end ReplicatedLog
