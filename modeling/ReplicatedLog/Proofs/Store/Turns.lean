import ReplicatedLog.Proofs.Store.Current

namespace ReplicatedLog

/-- Whether the store tells that this topic was opened or forgotten. -/
def Event.isTurnOf (topic : String) : Event → Bool
  | .opened other _ | .closed other _ => other = topic
  | .appended .. => false

/-- Events that are told of one topic in turns: it is opened, forgotten, opened again and so on. -/
def TakesTurns (topic : String) (turns : List Event) : Prop :=
  ∀ index event, turns[index]? = some event →
    ∃ maxOffset, event = if index % 2 = 0 then .opened topic maxOffset else .closed topic maxOffset

theorem TakesTurns.concat {topic : String} {turns : List Event} (hturns : TakesTurns topic turns)
    {event : Event} {maxOffset : Nat} (hnext : event =
      if turns.length % 2 = 0 then .opened topic maxOffset else .closed topic maxOffset) :
    TakesTurns topic (turns ++ [event]) := by
  intro index found hfound
  rcases lt_trichotomy index turns.length with hlt | rfl | hgt
  · rw [List.getElem?_append_left hlt] at hfound
    exact hturns index found hfound
  · rw [List.getElem?_concat_length] at hfound
    exact ⟨maxOffset, (Option.some.inj hfound).symm.trans hnext⟩
  · rw [List.getElem?_eq_none (by rw [List.length_append, List.length_singleton]; omega)] at hfound
    cases hfound

namespace Store

variable {store after : Store} {topic other : String} {number : Nat} {log : TopicLog}

/-- What was told of the opening and forgetting of a topic. -/
def turns (store : Store) (topic : String) : List Event :=
  store.events.filter (Event.isTurnOf topic)

/-- The store after a log that was found in its directory joined the open ones. -/
def withOpened (store : Store) (topic : String) (log : TopicLog) : Store :=
  { store with
    logs := store.logs ++ [log]
    catalog := store.catalog ++ [(topic, store.logs.length)]
    events := store.events ++ [.opened topic log.maxOffset] }

/-- The store after an open log was closed and forgotten. -/
def withClosed (store : Store) (topic : String) (number : Nat) (log : TopicLog) : Store :=
  { store with
    logs := store.logs.set number log.close
    catalog := store.catalog.filter fun entry => entry.1 ≠ topic
    events := store.events ++ [.closed topic log.maxOffset] }

/-- A topic is open already; or nothing happens, since its name is not valid or its directory does not
    load; or it is opened. -/
theorem get_cases (store : Store) (topic : String) :
    (∃ number, store.peek? topic = some number ∧ store.get topic = (.ok number, store)) ∨
    (store.peek? topic = none ∧ ∃ fault, store.get topic = (.error fault, store) ∧
      (¬ Topic.IsValid topic ∨
        StoredLog.ofDirectory topic (store.volume.directory topic) = .error fault)) ∨
    store.peek? topic = none ∧ ∃ stored, Topic.IsValid topic ∧
      StoredLog.ofDirectory topic (store.volume.directory topic) = .ok stored ∧
      store.get topic = (.ok store.logs.length, store.withOpened topic stored.log) := by
  cases hopen : store.peek? topic with
  | some number => exact Or.inl ⟨number, rfl, by simp only [get, hopen]⟩
  | none =>
    by_cases hvalid : Topic.IsValid topic
    · cases hfound : StoredLog.ofDirectory topic (store.volume.directory topic) with
      | error fault =>
        refine Or.inr (Or.inl ⟨rfl, fault, ?_, Or.inr rfl⟩)
        simp only [get, hopen, Topic.validate, if_pos hvalid, hfound]
      | ok stored =>
        refine Or.inr (Or.inr ⟨rfl, stored, hvalid, rfl, ?_⟩)
        simp only [get, hopen, Topic.validate, if_pos hvalid, hfound]
        rfl
    · refine Or.inr (Or.inl ⟨rfl, .setting (.topicName topic), ?_, Or.inl hvalid⟩)
      simp only [get, hopen, Topic.validate, if_neg hvalid]

theorem remove_of_open (hopen : store.peek? topic = some number)
    (hlog : store.logs[number]? = some log) :
    store.remove topic = (some number, store.withClosed topic number log) := by
  simp only [remove, hopen, hlog]
  rfl

theorem remove_of_not_open (hopen : store.peek? topic = none) :
    store.remove topic = (none, store) := by
  simp only [remove, hopen]

theorem peek?_withOpened_self (hopen : store.peek? topic = none) (log : TopicLog) :
    (store.withOpened topic log).peek? topic = some store.logs.length := by
  have hnone : store.catalog.lookup topic = none := hopen
  change (store.catalog ++ [(topic, store.logs.length)]).lookup topic = _
  rw [List.lookup_append, hnone]
  simp

theorem peek?_withOpened_of_ne (hne : other ≠ topic) (log : TopicLog) :
    (store.withOpened topic log).peek? other = store.peek? other := by
  change (store.catalog ++ [(topic, store.logs.length)]).lookup other = _
  rw [List.lookup_append, List.lookup_cons, beq_false_of_ne hne]
  exact Option.or_none

theorem volume_withClosed (store : Store) (topic : String) (number : Nat) (log : TopicLog) :
    (store.withClosed topic number log).volume = store.volume :=
  rfl

theorem peek?_withClosed_self (number : Nat) (log : TopicLog) :
    (store.withClosed topic number log).peek? topic = none :=
  Volume.lookup_filter_self

theorem peek?_withClosed_of_ne (hne : other ≠ topic) (number : Nat) (log : TopicLog) :
    (store.withClosed topic number log).peek? other = store.peek? other :=
  Volume.lookup_filter_of_ne hne

/-- What was told of each topic takes turns, and the topic is open after every other one of them. -/
structure Chronicled (store : Store) : Prop where
  turns : ∀ topic, TakesTurns topic (store.turns topic)
  held : ∀ topic, (∃ number, store.peek? topic = some number) ↔ (store.turns topic).length % 2 = 1

/-- The next turn of a topic opens it or forgets it, and all others are left as they are. -/
theorem Chronicled.next (hchronicled : store.Chronicled) {event : Event} {maxOffset : Nat}
    (hevents : after.events = store.events ++ [event])
    (hevent : event = if (store.turns topic).length % 2 = 0 then .opened topic maxOffset
      else .closed topic maxOffset)
    (hturned : (∃ number, after.peek? topic = some number) ↔
      ¬ ∃ number, store.peek? topic = some number)
    (hothers : ∀ other, other ≠ topic → after.peek? other = store.peek? other) :
    after.Chronicled := by
  have hself : after.turns topic = store.turns topic ++ [event] := by
    have hturn : event.isTurnOf topic = true := by
      rw [hevent]
      split <;> simp [Event.isTurnOf]
    rw [Store.turns, hevents, List.filter_append, List.filter_singleton, hturn]
    rfl
  have hsame : ∀ other, other ≠ topic → after.turns other = store.turns other := by
    intro other hne
    have hturn : event.isTurnOf other = false := by
      rw [hevent]
      split <;> simp [Event.isTurnOf, Ne.symm hne]
    rw [Store.turns, hevents, List.filter_append, List.filter_singleton, hturn]
    exact List.append_nil _
  constructor
  · intro other
    by_cases hname : other = topic
    · subst hname
      rw [hself]
      exact (hchronicled.turns other).concat hevent
    · rw [hsame other hname]
      exact hchronicled.turns other
  · intro other
    by_cases hname : other = topic
    · subst hname
      rw [hturned, hchronicled.held, hself, List.length_append, List.length_singleton]
      omega
    · rw [hothers other hname, hsame other hname]
      exact hchronicled.held other
/-- A topic is open exactly if the last that was told of it is that it was opened. -/
theorem Chronicled.open_iff (hchronicled : store.Chronicled) (topic : String) :
    (∃ number, store.peek? topic = some number) ↔
      ∃ maxOffset, (store.turns topic).getLast? = some (.opened topic maxOffset) := by
  rw [hchronicled.held topic, List.getLast?_eq_getElem?]
  constructor
  · intro hodd
    obtain ⟨event, hevent⟩ : ∃ event,
        (store.turns topic)[(store.turns topic).length - 1]? = some event :=
      ⟨_, List.getElem?_eq_getElem (by omega)⟩
    obtain ⟨maxOffset, hturn⟩ := hchronicled.turns topic _ event hevent
    rw [if_pos (by omega)] at hturn
    exact ⟨maxOffset, hevent.trans (congrArg some hturn)⟩
  · rintro ⟨maxOffset, hevent⟩
    obtain ⟨hlt, -⟩ := List.getElem?_eq_some_iff.mp hevent
    obtain ⟨other, hturn⟩ := hchronicled.turns topic _ _ hevent
    by_contra heven
    rw [if_neg (by omega)] at hturn
    cases hturn
/-- The turns of all topics are as they were if only bytes were told of. -/
theorem turns_of_appended {told : List Event} (hevents : after.events = store.events ++ told)
    (htold : ∀ event ∈ told, ∃ listener topic maxOffset, event = .appended listener topic maxOffset)
    (topic : String) : after.turns topic = store.turns topic := by
  have hnone : told.filter (Event.isTurnOf topic) = [] := by
    refine List.filter_eq_nil_iff.mpr fun event hevent => ?_
    obtain ⟨listener, other, maxOffset, rfl⟩ := htold event hevent
    simp [Event.isTurnOf]
  rw [turns, hevents, List.filter_append, hnone, List.append_nil]
  rfl

theorem turns_announce (store : Store) (topic other : String) :
    (store.announce topic).turns other = store.turns other := by
  unfold announce
  split
  · refine turns_of_appended rfl (fun event hevent => ?_) other
    obtain ⟨entry, -, rfl⟩ := List.mem_map.mp hevent
    exact ⟨entry.2, _, _, rfl⟩
  · rfl

theorem turns_onLog {α : Type} (store : Store) (number : Nat)
    (work : StoredLog → Except Fault α × StoredLog) (topic : String) :
    (store.onLog number work).2.turns topic = store.turns topic := by
  unfold onLog
  cases store.stored? number <;> rfl
/-- What an append does once its topic is open: work on the log, and word of it where it succeeded. -/
theorem append_of_get {opened : Store} (hget : store.get topic = (.ok number, opened)) (data : Bytes)
    (rollSize : Nat) (now : Instant) :
    (store.append topic data rollSize now).2 =
        (opened.onLog number (·.append data rollSize now)).2 ∨
      (store.append topic data rollSize now).2 =
        (opened.onLog number (·.append data rollSize now)).2.announce topic := by
  simp only [append, onTopic, hget]
  rcases opened.onLog number (·.append data rollSize now) with ⟨_ | maxOffset, worked⟩
  · exact Or.inl rfl
  · exact Or.inr rfl

theorem turns_append (store : Store) (topic : String) (data : Bytes) (rollSize : Nat) (now : Instant)
    (other : String) :
    (store.append topic data rollSize now).2.turns other = (store.get topic).2.turns other := by
  rcases hget : store.get topic with ⟨fault | number, opened⟩
  · simp only [append, onTopic, hget]
  · rcases append_of_get hget data rollSize now with hsilent | htold
    · rw [hsilent, turns_onLog]
    · rw [htold, turns_announce, turns_onLog]

end Store

end ReplicatedLog
