import ReplicatedLog.Proofs.Replication.Run

namespace ReplicatedLog.System

variable {volume other : Volume} {settings : SyncSettings} {sinks : List Sink} {rollSize : Nat}
  {first floor : String → Nat} {history received : String → Bytes} {actions : List Action}
  {system : System} {topic : String} {publishes replies : List Packet}
  {exchanges : String → Exchange}

/-- A topic is taken up only when no frame about it is under way. -/
def Quiets (system : System) : Action → Prop
  | .register topic _ | .enlist topic _ _ =>
    ∀ frame ∈ system.replies ++ system.sent, ∀ packet, Frame.encode packet = .ok frame →
      packet.topic ≠ Utf8.encode topic
  | _ => True

/-- Without a frame about a topic nothing of it is under way. -/
theorem Reflects.flight_eq_nil (hreflects : system.Reflects publishes replies exchanges)
    (hshort : topic.utf8ByteSize ≤ maxNameLength)
    (hquiet : ∀ frame ∈ system.replies ++ system.sent, ∀ packet,
      Frame.encode packet = .ok frame → packet.topic ≠ Utf8.encode topic) :
    (exchanges topic).flight = [] := by
  have hframed : Framed (system.replies ++ system.sent) (replies ++ publishes) :=
    List.rel_append hreflects.flight.inward hreflects.flight.outward
  rw [(hreflects.shows topic hshort).flight, Packet.about, List.filter_eq_nil_iff]
  intro packet hmem
  obtain ⟨frame, hfound, hencode⟩ := hframed.exists_frame hmem
  simpa using hquiet frame hfound packet hencode

/-- What sinks are told stays within what the service has. -/
theorem Reflects.credited_step (hreflects : system.Reflects publishes replies exchanges)
    (hshort : topic.utf8ByteSize ≤ maxNameLength) {action : Action} (hquiets : system.Quiets action)
    {after : Exchange} (hbefore : (exchanges topic).Credited ∧
      ∀ offset ∈ (exchanges topic).told, offset ≤ (exchanges topic).received.length)
    (hstep : (exchanges topic).Step topic action after) :
    after.Credited ∧ ∀ offset ∈ after.told, offset ≤ after.received.length := by
  obtain ⟨hcredited, hplaced⟩ := hbefore
  refine ⟨hcredited.step hstep ?_, hcredited.told_le hstep hplaced⟩
  rintro offset (rfl | ⟨name, rfl⟩) -
  · exact hreflects.flight_eq_nil hshort hquiets
  · exact hreflects.flight_eq_nil hshort hquiets

/-- After any run in which topics are taken up only when nothing of them is under way, the service
    has every byte before an offset that a sink was told. A reply does not say which publish it
    answers, and is taken for the answer to the one that waits. -/
theorem Run.told_le_maxOffset (hclient : volume.Stores first history)
    (hservice : other.Stores floor received)
    (hleads : ∀ topic, topic.utf8ByteSize ≤ maxNameLength → received topic <+: history topic)
    (htold : ∀ offset, Sink.Told sinks topic offset → offset ≤ (received topic).length)
    (hrun : Run Quiets (start volume other settings sinks rollSize) actions system)
    (hshort : topic.utf8ByteSize ≤ maxNameLength) :
    ∃ kept, system.peer.service.store.current topic = .ok kept ∧
      ∀ offset, Sink.Told system.producer.sinks topic offset → offset ≤ kept.log.maxOffset := by
  obtain ⟨publishes, replies, exchanges, hreflects, ⟨-, hplaced⟩, -⟩ :=
    hrun.exchange (.start hclient hservice hleads settings sinks rollSize) hshort
      (fun exchange => exchange.Credited ∧
        ∀ offset ∈ exchange.told, offset ≤ exchange.received.length)
      ⟨⟨nofun, nofun⟩, fun offset hmem => htold offset (Sink.mem_offsets.mp hmem)⟩
      fun action after hreflects hquiets hbefore hstep =>
        hreflects.credited_step hshort hquiets hbefore hstep
  obtain ⟨-, ⟨kept, hkept, hkeeps, -⟩, -, hknown⟩ := hreflects.shows topic hshort
  refine ⟨kept, hkept, fun offset htold => ?_⟩
  rw [← hkeeps.1]
  exact hplaced offset (hknown offset htold)

/-- A topic is given up and taken up again after the publish of it was acknowledged. -/
theorem told_after_rejoin :
    let before := [.append "t" [1, 2, 3] 1000 ⟨0, 0⟩, .register "t" 0, .connect, .publish "t" ⟨0, 0⟩,
      .serve 0, .deliver ⟨0, 0⟩, .remove ⟨0, 0⟩].foldl perform (start {} {} {} [.journal [] 0 []] 1000)
    let system := before.perform (.register "t" 1)
    Sink.Told system.producer.sinks "t" 3 ∧
      ∃ kept, system.peer.service.store.current "t" = .ok kept ∧ 3 ≤ kept.log.maxOffset := by
  intro before system
  have hstart : Run Quiets (start {} {} {} [.journal [] 0 []] 1000) []
      (start {} {} {} [.journal [] 0 []] 1000) := .refl
  have happended := hstart.step (.append "t" [1, 2, 3] 1000 ⟨0, 0⟩) ⟨by decide, by decide,
    fun stored hstored => by
      obtain rfl := Except.ok.inj hstored
      decide⟩ trivial
  have hregistered := happended.step (.register "t" 0) (by unfold Fits; decide) nofun
  have hpublished := (hregistered.step .connect trivial trivial).step (.publish "t" ⟨0, 0⟩) trivial
    trivial
  have hanswered := (hpublished.step (.serve 0) (by unfold Fits; decide) trivial).step (.deliver ⟨0, 0⟩)
    trivial trivial
  have hremoved : Run Quiets _ _ before := hanswered.step (.remove ⟨0, 0⟩) trivial trivial
  have hempty : before.replies ++ before.sent = [] := by decide +kernel
  have hquiets : before.Quiets (.register "t" 1) := by
    unfold Quiets
    rw [hempty]
    exact nofun
  have hrun : Run Quiets _ _ system := hremoved.step _ (by unfold Fits; decide) hquiets
  have hsinks : system.producer.sinks = [.journal [("t", 3)] 1 []] := by decide +kernel
  obtain ⟨kept, hkept, hplaced⟩ := hrun.told_le_maxOffset Volume.stores_empty Volume.stores_empty
    (fun _ _ => List.prefix_refl _) (by simp [Sink.Told, Sink.Recalls, Sink.told?])
    (show "t".utf8ByteSize ≤ maxNameLength by decide)
  have htold : Sink.Told system.producer.sinks "t" 3 := by
    simp [hsinks, Sink.Told, Sink.Recalls, Sink.told?]
  exact ⟨htold, kept, hkept, hplaced 3 htold⟩

/-- A topic that is taken up again while a publish of it is under way is credited with the answer to
    that. Here the service has ten bytes of a topic when a sink is told that it has sixty. -/
theorem overtold_after_rejoin :
    ∃ actions system, Run (fun _ _ => True)
        (start {} {} { chunkSize := 10 } [.journal [] 0 []] 1000) actions system ∧
      Sink.Told system.producer.sinks "t" 60 ∧
      ∃ kept, system.peer.service.store.current "t" = .ok kept ∧ kept.log.maxOffset = 10 := by
  have hstart : Run (fun _ _ => True) (start {} {} { chunkSize := 10 } [.journal [] 0 []] 1000) []
      (start {} {} { chunkSize := 10 } [.journal [] 0 []] 1000) := .refl
  have happended := hstart.step (.append "t" (List.replicate 100 7) 1000 ⟨0, 0⟩)
    ⟨by decide, by decide, fun stored hstored => by
      obtain rfl := Except.ok.inj hstored
      decide⟩ trivial
  have hregistered := happended.step (.register "t" 0) (by unfold Fits; decide) trivial
  have hpublished := (hregistered.step .connect trivial trivial).step (.publish "t" ⟨0, 0⟩) trivial
    trivial
  have hremoved := hpublished.step (.remove ⟨0, 0⟩) trivial trivial
  have hrejoined := hremoved.step (.register "t" 50) (by unfold Fits; decide) trivial
  let system := [.append "t" (List.replicate 100 7) 1000 ⟨0, 0⟩, .register "t" 0, .connect,
    .publish "t" ⟨0, 0⟩, .remove ⟨0, 0⟩, .register "t" 50, .publish "t" ⟨0, 0⟩, .serve 0,
    .deliver ⟨0, 0⟩].foldl perform (start {} {} { chunkSize := 10 } [.journal [] 0 []] 1000)
  have hrun : Run _ _ _ system := ((hrejoined.step (.publish "t" ⟨0, 0⟩) trivial trivial).step (.serve 0)
    (by unfold Fits; decide) trivial).step (.deliver ⟨0, 0⟩) trivial trivial
  have hsinks : system.producer.sinks = [.journal [("t", 60)] 1 []] := by decide +kernel
  have hmax : (system.peer.service.store.current "t").toOption.map (·.log.maxOffset) = some 10 := by
    decide +kernel
  refine ⟨_, system, hrun, by simp [hsinks, Sink.Told, Sink.Recalls, Sink.told?], ?_⟩
  cases hcurrent : system.peer.service.store.current "t" with
  | error fault =>
    rw [hcurrent] at hmax
    cases hmax
  | ok kept =>
    rw [hcurrent] at hmax
    exact ⟨kept, rfl, Option.some.inj hmax⟩

end ReplicatedLog.System
