import ReplicatedLog.Proofs.Replication.Simulation
import ReplicatedLog.Proofs.Store.Opening

namespace ReplicatedLog

/-- The offsets of a topic that sinks were told. -/
def Sink.offsets (sinks : List Sink) (topic : String) : List Nat :=
  (sinks.flatMap fun sink => sink.told?.getD []).filterMap fun entry =>
    if entry.1 = topic then some entry.2 else none

theorem Sink.mem_offsets {sinks : List Sink} {topic : String} {offset : Nat} :
    offset ∈ offsets sinks topic ↔ Told sinks topic offset := by
  simp only [offsets, Told, Recalls, List.mem_filterMap, List.mem_flatMap]
  constructor
  · rintro ⟨⟨other, place⟩, ⟨sink, hsink, hmem⟩, hentry⟩
    obtain ⟨rfl, rfl⟩ : other = topic ∧ place = offset := by simpa using hentry
    cases htold : sink.told? with
    | none => simp [htold] at hmem
    | some told => exact ⟨sink, hsink, told, htold, by simpa [htold] using hmem⟩
  · rintro ⟨sink, hsink, told, htold, hmem⟩
    exact ⟨(topic, offset), ⟨sink, hsink, by simpa [htold] using hmem⟩, if_pos rfl⟩

namespace System

variable {volume other : Volume} {settings : SyncSettings} {sinks : List Sink} {rollSize : Nat}
  {first floor : String → Nat} {history received : String → Bytes}
  {allowed : System → Action → Prop} {actions : List Action} {system : System} {topic : String}
  {publishes replies : List Packet} {exchanges : String → Exchange}

/-- The exchanges of a system that just started. -/
def fresh (sinks : List Sink) (first floor : String → Nat) (history received : String → Bytes)
    (topic : String) : Exchange where
  history := history topic
  first := first topic
  received := received topic
  floor := floor topic
  standing := none
  flight := []
  told := Sink.offsets sinks topic

theorem Reflects.start (hclient : volume.Stores first history) (hservice : other.Stores floor received)
    (hleads : ∀ topic, topic.utf8ByteSize ≤ maxNameLength → received topic <+: history topic)
    (settings : SyncSettings) (sinks : List Sink) (rollSize : Nat) :
    (start volume other settings sinks rollSize).Reflects [] []
      (fresh sinks first floor history received) := by
  refine ⟨⟨nofun, nofun, nofun, nofun, ⟨rollSize, rfl⟩, Or.inl ⟨rfl, rfl, rfl⟩⟩,
    ⟨.nil, .nil, nofun, nofun⟩, fun topic hshort => ?_, fun topic hshort =>
      ⟨hleads topic hshort, nofun⟩⟩
  obtain ⟨stored, hstored, hkeeps, hfirst, -, hreaders⟩ := (hclient topic hshort).exists_keeps
  obtain ⟨kept, hkept, hserved, hfloor, hnone, -⟩ := (hservice topic hshort).exists_keeps
  refine ⟨⟨stored, ⟨hstored, hkeeps, ?_, .absent⟩, hfirst⟩, ⟨kept, hkept, hserved, hnone, hfloor⟩,
    rfl, fun offset htold => Sink.mem_offsets.mpr htold⟩
  intro reader hmem
  rw [hreaders] at hmem
  cases hmem

/-- A property of the exchange of one topic that every step preserves holds after every run. Its
    history went on with what was appended. -/
theorem Run.exchange {start : System} {initial : String → Exchange}
    (hrun : Run allowed start actions system) (hstart : start.Reflects [] [] initial)
    (hshort : topic.utf8ByteSize ≤ maxNameLength) (Holds : Exchange → Prop)
    (hinitial : Holds (initial topic))
    (hstep : ∀ {system publishes replies exchanges} action after,
      Reflects system publishes replies exchanges → allowed system action → Holds (exchanges topic) →
        (exchanges topic).Step topic action after → Holds after) :
    ∃ publishes replies exchanges, system.Reflects publishes replies exchanges ∧
      Holds (exchanges topic) ∧ (exchanges topic).floor = (initial topic).floor ∧
      (Topic.IsValid topic →
        (exchanges topic).history = (initial topic).history ++ added topic actions) := by
  induction hrun with
  | refl => exact ⟨[], [], initial, hstart, hinitial, rfl, fun _ => (List.append_nil _).symm⟩
  | step hbefore action hfits hallowed ih =>
    obtain ⟨publishes, replies, exchanges, hreflects, hholds, hfloor, hhistory⟩ := ih
    obtain ⟨morePublishes, moreReplies, next, hnext, hsteps⟩ := hreflects.perform action hfits
    obtain ⟨hone, hadds⟩ := hsteps topic hshort
    refine ⟨morePublishes, moreReplies, next, hnext, hstep action _ hreflects hallowed hholds hone,
      hone.floor_eq.trans hfloor, fun hvalid => ?_⟩
    rw [hadds hvalid, hhistory hvalid, List.append_assoc, added, added, List.flatMap_append,
      List.flatMap_singleton]

end System

end ReplicatedLog
