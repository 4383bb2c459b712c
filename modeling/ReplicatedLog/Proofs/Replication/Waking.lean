import ReplicatedLog.Proofs.Replication.Client

namespace ReplicatedLog.Client

variable {client middle after : Client} {topic other : String}

/-- Exactly the topics of the queue are marked, and each is there once. -/
structure Coalesced (client : Client) : Prop where
  marked : ∀ topic, topic ∈ client.pending ↔ topic ∈ client.queue
  nodup : client.queue.Nodup

/-- No topic was taken out of the queue, and no timer was stopped. -/
structure Remembers (client after : Client) : Prop where
  queue : client.queue ⊆ after.queue
  timers : client.timers ⊆ after.timers
  coalesced : client.Coalesced → after.Coalesced

namespace Remembers

theorem of_eq (hqueue : after.queue = client.queue) (hpending : after.pending = client.pending)
    (htimers : client.timers ⊆ after.timers) : client.Remembers after where
  queue := hqueue ▸ List.Subset.refl _
  timers := htimers
  coalesced hcoalesced := by
    refine ⟨fun topic => ?_, hqueue ▸ hcoalesced.nodup⟩
    rw [hpending, hqueue]
    exact hcoalesced.marked topic

theorem refl (client : Client) : client.Remembers client :=
  .of_eq rfl rfl (List.Subset.refl _)

theorem trans (hfirst : client.Remembers middle) (hsecond : middle.Remembers after) :
    client.Remembers after where
  queue := List.Subset.trans hfirst.queue hsecond.queue
  timers := List.Subset.trans hfirst.timers hsecond.timers
  coalesced hcoalesced := hsecond.coalesced (hfirst.coalesced hcoalesced)

end Remembers

theorem Coalesced.wake (hcoalesced : client.Coalesced) (topic : String) :
    (client.wake topic).Coalesced := by
  unfold Client.wake
  split
  · exact hcoalesced
  next hfresh =>
    have hnew : topic ∉ client.queue := by
      rw [← hcoalesced.marked topic]
      simpa using hfresh
    refine ⟨fun other => ?_, ?_⟩
    · rw [List.mem_cons, List.mem_append, List.mem_singleton, hcoalesced.marked other]
      exact Or.comm
    · rw [List.nodup_append]
      refine ⟨hcoalesced.nodup, by simp, fun old hold fresh hmem => ?_⟩
      rw [List.mem_singleton.mp hmem]
      rintro rfl
      exact hnew hold

theorem remembers_wake (client : Client) (topic : String) : client.Remembers (client.wake topic) := by
  refine ⟨?_, ?_, fun hcoalesced => hcoalesced.wake topic⟩
  · unfold Client.wake
    split
    · exact List.Subset.refl _
    · exact List.subset_append_left _ _
  · unfold Client.wake
    split <;> exact List.Subset.refl _

/-- A topic that is woken is in the queue from then on. -/
theorem Coalesced.mem_wake (hcoalesced : client.Coalesced) (topic : String) :
    topic ∈ (client.wake topic).queue := by
  unfold Client.wake
  split
  next hmarked =>
    rw [← hcoalesced.marked topic]
    simpa using hmarked
  · exact List.mem_append_right _ (List.mem_singleton_self _)

theorem remembers_modify (client : Client) (topic : String) (change : Publication → Publication) :
    client.Remembers (client.modify topic change) :=
  .of_eq rfl rfl (List.Subset.refl _)

theorem remembers_scheduleRetry (client : Client) (topic : String) (moment : Moment) :
    client.Remembers (client.scheduleRetry topic moment) := by
  unfold scheduleRetry
  split
  · exact .refl client
  · split
    · exact .of_eq rfl rfl (List.subset_append_left _ _)
    · exact client.remembers_modify topic _

theorem remembers_cursorFailed (client : Client) (topic : String) (fault : Fault) (moment : Moment) :
    client.Remembers (client.cursorFailed topic fault moment) := by
  unfold cursorFailed
  split
  · exact client.remembers_modify topic _
  · exact client.remembers_scheduleRetry topic moment

theorem remembers_clearOutstanding (client : Client) (topic : String) :
    client.Remembers (client.clearOutstanding topic) :=
  client.remembers_modify topic _

theorem remembers_notice (client : Client) (events : List Event) :
    client.Remembers (client.notice events) := by
  unfold notice
  induction events generalizing client with
  | nil => exact .refl client
  | cons event rest ih =>
    rw [List.foldl_cons]
    refine Remembers.trans ?_ (ih _)
    split
    · split
      · exact client.remembers_wake _
      · exact .refl client
    · exact .refl client

/-- A client that is told of bytes added to a topic looks at it before long. -/
theorem Coalesced.mem_notice (hcoalesced : client.Coalesced) {events : List Event} {maxOffset : Nat}
    (hevent : .appended (.replicator client.name) topic maxOffset ∈ events) :
    topic ∈ (client.notice events).queue := by
  obtain ⟨front, back, rfl⟩ := List.append_of_mem hevent
  have hfront := client.remembers_notice front
  have hname : (client.notice front).name = client.name :=
    congrArg SyncSettings.clientName (publications_notice client front).2
  have hwoken := (hfront.coalesced hcoalesced).mem_wake topic
  have hback := ((client.notice front).wake topic).remembers_notice back
  have hsplit : client.notice
      (front ++ .appended (.replicator client.name) topic maxOffset :: back) =
      ((client.notice front).wake topic).notice back := by
    change List.foldl _ client _ = _
    rw [List.foldl_append, List.foldl_cons]
    change notice (if client.name = (client.notice front).name then _ else _) back = _
    rw [if_pos hname.symm]
    rfl
  rw [hsplit]
  exact hback.queue hwoken

/-- The topic that is taken out of the queue is the only one to leave it. -/
theorem take_spec (htake : client.take = some (topic, after)) :
    client.queue = topic :: after.queue ∧ after.timers = client.timers ∧
      (client.Coalesced → after.Coalesced) := by
  unfold take at htake
  cases hqueue : client.queue with
  | nil => simp [hqueue] at htake
  | cons first rest =>
    simp only [hqueue, Option.some.injEq, Prod.mk.injEq] at htake
    obtain ⟨rfl, rfl⟩ := htake
    refine ⟨rfl, rfl, fun hcoalesced => ?_⟩
    have hnodup := hqueue ▸ hcoalesced.nodup
    obtain ⟨hfirst, hrest⟩ := List.nodup_cons.mp hnodup
    refine ⟨fun other => ?_, hrest⟩
    have hmarked := hcoalesced.marked other
    rw [hqueue, List.mem_cons] at hmarked
    simp only [List.mem_filter, hmarked, ne_eq, decide_not, Bool.not_eq_eq_eq_not, Bool.not_true,
      decide_eq_false_iff_not]
    constructor
    · rintro ⟨rfl | hmem, hne⟩
      · exact absurd rfl hne
      · exact hmem
    · intro hmem
      exact ⟨Or.inr hmem, fun heq => hfirst (heq ▸ hmem)⟩

theorem foldl_wake_spec (due : List (Nat × String)) (client : Client) :
    client.Remembers (due.foldl (fun client timer => client.wake timer.2) client) ∧
      (client.Coalesced → ∀ timer ∈ due,
        timer.2 ∈ (due.foldl (fun client timer => client.wake timer.2) client).queue) := by
  induction due generalizing client with
  | nil => exact ⟨.refl client, nofun⟩
  | cons first rest ih =>
    obtain ⟨hremembers, hwoken⟩ := ih (client.wake first.2)
    have hfirst := client.remembers_wake first.2
    refine ⟨hfirst.trans hremembers, fun hcoalesced timer hmem => ?_⟩
    rcases List.mem_cons.mp hmem with rfl | hrest
    · exact hremembers.queue (hcoalesced.mem_wake timer.2)
    · exact hwoken (hfirst.coalesced hcoalesced) timer hrest

/-- A timer that fires leaves its topic in the queue. -/
theorem fireThose_spec (client : Client) (ready : Nat × String → Bool) :
    client.queue ⊆ (client.fireThose ready).queue ∧
      (client.Coalesced → (client.fireThose ready).Coalesced ∧ ∀ timer ∈ client.timers,
        timer ∈ (client.fireThose ready).timers ∨
          ready timer = true ∧ timer.2 ∈ (client.fireThose ready).queue) := by
  unfold fireThose
  rw [List.partition_eq_filter_filter]
  let later := client.timers.filter (not ∘ ready)
  obtain ⟨hremembers, hwoken⟩ := foldl_wake_spec (client.timers.filter ready)
    { client with timers := later }
  refine ⟨hremembers.queue, fun hcoalesced => ?_⟩
  have hstart : Coalesced { client with timers := later } := ⟨hcoalesced.marked, hcoalesced.nodup⟩
  refine ⟨hremembers.coalesced hstart, fun timer hmem => ?_⟩
  cases hready : ready timer with
  | true => exact Or.inr ⟨rfl, hwoken hstart timer (List.mem_filter.mpr ⟨hmem, hready⟩)⟩
  | false =>
    refine Or.inl (hremembers.timers (List.mem_filter.mpr ⟨hmem, ?_⟩))
    rw [Function.comp_apply, hready]
    rfl

end ReplicatedLog.Client
