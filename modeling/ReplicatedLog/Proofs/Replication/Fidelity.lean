import ReplicatedLog.Proofs.Replication.Run

namespace ReplicatedLog.System

variable {volume other : Volume} {settings : SyncSettings} {sinks : List Sink} {rollSize : Nat}
  {first floor : String → Nat} {history received : String → Bytes}
  {allowed : System → Action → Prop} {actions : List Action} {system : System} {topic : String}
  {publishes replies : List Packet} {exchanges : String → Exchange}

/-- No topic is taken up beyond what the service has of it, and none is given up. -/
def Anchors (system : System) : Action → Prop
  | .register topic offset | .enlist topic _ offset =>
    ∀ kept, system.peer.service.store.current topic = .ok kept → offset ≤ kept.log.maxOffset
  | .remove _ => False
  | _ => True

/-- A topic that is taken up so stays anchored in what the service has. -/
theorem Reflects.anchored_step (hreflects : system.Reflects publishes replies exchanges)
    (hshort : topic.utf8ByteSize ≤ maxNameLength) {action : Action}
    (hanchors : system.Anchors action) {after : Exchange}
    (hbefore : (exchanges topic).Credited ∧ (exchanges topic).Anchored)
    (hstep : (exchanges topic).Step topic action after) : after.Credited ∧ after.Anchored := by
  obtain ⟨hcredited, hanchored⟩ := hbefore
  obtain ⟨kept, hkept, hkeeps, -⟩ := (hreflects.shows topic hshort).service
  refine ⟨hcredited.step hstep fun _ _ => hanchored.silent, hanchored.step hcredited hstep ?_ ?_⟩
  · rintro handle rfl
    exact hanchors
  · rintro offset (rfl | ⟨name, rfl⟩)
    · exact (hanchors kept hkept).trans hkeeps.1.ge
    · exact (hanchors kept hkept).trans hkeeps.1.ge

/-- Nothing of a topic that was just found is under way. -/
theorem fresh_anchored (sinks : List Sink) (first floor : String → Nat)
    (history received : String → Bytes) (topic : String) :
    (fresh sinks first floor history received topic).Credited ∧
      (fresh sinks first floor history received topic).Anchored :=
  ⟨⟨nofun, nofun⟩, ⟨fun _ => rfl, nofun, nofun, nofun⟩⟩

/-- The topics of a client that is caught up stand at the ends of their logs. -/
theorem Reflects.offset_of_caughtUp (hreflects : system.Reflects publishes replies exchanges)
    (hshort : topic.utf8ByteSize ≤ maxNameLength)
    (hcaughtUp : system.producer.client.isCaughtUp system.producer.store = true)
    {publication : Publication}
    (hfound : system.producer.client.publication? topic = some publication) :
    ∃ place, (exchanges topic).standing = some place ∧
      place.offset = (exchanges topic).history.length := by
  obtain ⟨stored, hstored, -⟩ := (hreflects.shows topic hshort).producer
  have hstands := hstored.stands
  rw [hfound] at hstands
  obtain ⟨hmem, -⟩ := Client.mem_of_publication? hfound
  have hdone := List.all_eq_true.mp hcaughtUp publication hmem
  generalize hplace : (exchanges topic).standing = standing at hstands
  cases hstands with
  | present hopen htracked hwaits =>
    have hoffsets := Client.offsets_eq hreflects.sound.producer hopen hstored.current htracked.found
    simp only [hoffsets, Bool.and_eq_true, decide_eq_true_eq] at hdone
    refine ⟨_, rfl, ?_⟩
    rw [hstored.keeps.1, ← htracked.maxOffset]
    exact hdone.2

/-- Both sides hold history, the service as much of it as it says. -/
theorem Reflects.exists_holds (hreflects : system.Reflects publishes replies exchanges)
    (hshort : topic.utf8ByteSize ≤ maxNameLength) :
    ∃ stored kept, system.producer.store.current topic = .ok stored ∧
      system.peer.service.store.current topic = .ok kept ∧
      stored.log.firstOffset = (exchanges topic).first ∧
      kept.log.maxOffset = (exchanges topic).received.length ∧
      stored.Holds stored.log.firstOffset (exchanges topic).history ∧
      kept.Holds (exchanges topic).floor
        ((exchanges topic).history.take kept.log.maxOffset) := by
  obtain ⟨⟨stored, hstored, hfirst⟩, ⟨kept, hkept, hkeeps, -, hfloor⟩, -, -⟩ :=
    hreflects.shows topic hshort
  have htake := List.prefix_iff_eq_take.mp (hreflects.faithful topic hshort).received
  rw [hkeeps.1] at htake
  refine ⟨stored, kept, hstored.current, hkept, hfirst, hkeeps.1.symm, hstored.keeps.holds, ?_⟩
  rw [← htake, ← hfloor]
  exact hkeeps.holds

/-- After any run both sides have what the client had at the start and what was appended since: the
    client all of it, the service as much as it says. A client that took up its topics within reach
    of the service knows when that is all. -/
theorem Run.fidelity (hclient : volume.Stores first history) (hservice : other.Stores floor received)
    (hleads : ∀ topic, topic.utf8ByteSize ≤ maxNameLength → received topic <+: history topic)
    (hrun : Run allowed (start volume other settings sinks rollSize) actions system)
    (hvalid : Topic.IsValid topic) (hshort : topic.utf8ByteSize ≤ maxNameLength) :
    ∃ stored kept, system.producer.store.current topic = .ok stored ∧
      system.peer.service.store.current topic = .ok kept ∧
      stored.Holds stored.log.firstOffset (history topic ++ added topic actions) ∧
      kept.Holds (floor topic) ((history topic ++ added topic actions).take kept.log.maxOffset) ∧
      ((∀ system action, allowed system action → system.Anchors action) →
        system.producer.client.isCaughtUp system.producer.store = true →
        ∀ publication, system.producer.client.publication? topic = some publication →
          kept.Holds (floor topic) (history topic ++ added topic actions)) := by
  obtain ⟨publishes, replies, exchanges, hreflects, hanchored, hfloor, hadded⟩ :=
    hrun.exchange (.start hclient hservice hleads settings sinks rollSize) hshort
      (fun exchange => (∀ system action, allowed system action → system.Anchors action) →
        exchange.Credited ∧ exchange.Anchored)
      (fun _ => fresh_anchored sinks first floor history received topic)
      fun action after hreflects hallowed hbefore hstep hall =>
        hreflects.anchored_step hshort (hall _ action hallowed) (hbefore hall) hstep
  obtain ⟨stored, kept, hstored, hkept, -, hmax, hholds, hserved⟩ := hreflects.exists_holds hshort
  have hall : (exchanges topic).history = history topic ++ added topic actions := hadded hvalid
  have hstart : (exchanges topic).floor = floor topic := hfloor
  rw [hall] at hholds
  rw [hall, hstart] at hserved
  refine ⟨stored, kept, hstored, hkept, hholds, hserved, ?_⟩
  intro hanchors hcaughtUp publication hfound
  obtain ⟨place, hplace, hoffset⟩ := hreflects.offset_of_caughtUp hshort hcaughtUp hfound
  have hreach := ((hanchored hanchors).2.place place hplace).1
  have hlong : (history topic ++ added topic actions).length ≤ kept.log.maxOffset := by
    rw [← hall, ← hoffset, hmax]
    exact hreach
  rwa [List.take_of_length_le hlong] at hserved

/-- Three bytes are appended, published, stored and acknowledged. -/
theorem fidelity_after_ack :
    let system := [.append "t" [1, 2, 3] 1000 ⟨0, 0⟩, .register "t" 0, .connect,
      .publish "t" ⟨0, 0⟩, .serve 0, .deliver ⟨0, 0⟩].foldl perform (start {} {} {} [] 1000)
    system.producer.client.isCaughtUp system.producer.store = true ∧
      ∃ kept, system.peer.service.store.current "t" = .ok kept ∧ kept.Holds 0 [1, 2, 3] := by
  intro system
  have hstart : Run Anchors (start {} {} {} [] 1000) [] (start {} {} {} [] 1000) := .refl
  have happended := hstart.step (.append "t" [1, 2, 3] 1000 ⟨0, 0⟩) ⟨by decide, by decide,
    fun stored hstored => by
      obtain rfl := Except.ok.inj hstored
      decide⟩ trivial
  have hregistered := happended.step (.register "t" 0) (by unfold Fits; decide)
    fun _ _ => Nat.zero_le _
  have hpublished := (hregistered.step .connect trivial trivial).step (.publish "t" ⟨0, 0⟩) trivial
    trivial
  have hrun : Run Anchors _ _ system := (hpublished.step (.serve 0) (by unfold Fits; decide)
    trivial).step (.deliver ⟨0, 0⟩) trivial trivial
  obtain ⟨stored, kept, -, hkept, -, -, hall⟩ := hrun.fidelity Volume.stores_empty
    Volume.stores_empty (fun _ _ => List.prefix_refl _) (show Topic.IsValid "t" by decide) (by decide)
  have hcaughtUp : system.producer.client.isCaughtUp system.producer.store = true := by
    decide +kernel
  obtain ⟨publication, hfound⟩ : ∃ publication,
      system.producer.client.publication? "t" = some publication :=
    Option.isSome_iff_exists.mp (by decide +kernel)
  exact ⟨hcaughtUp, kept, hkept, hall (fun _ _ => id) hcaughtUp publication hfound⟩

end ReplicatedLog.System
