import ReplicatedLog.Proofs.Store.Readers
import ReplicatedLog.Proofs.Store.Writing

namespace ReplicatedLog

theorem TopicLog.Grown.listeners_eq {log after : TopicLog} {length : Nat}
    (hgrown : log.Grown length after) : after.listeners = log.listeners := by
  obtain ⟨wide, active, hwide, -⟩ := hgrown
  cases hwide <;> rfl

theorem TopicLog.Cleaned.listeners_eq {log after : TopicLog} {gate : Nat}
    (hcleaned : log.Cleaned gate after) : after.listeners = log.listeners := by
  induction hcleaned with
  | same => rfl
  | oldest _ _ _ ih => exact ih
  | last => rfl

namespace Store

/-- Every log kept its number and its listeners. -/
def Retains (store after : Store) : Prop :=
  ∀ (number : Nat) (log : TopicLog), store.logs[number]? = some log →
    ∃ later : TopicLog, after.logs[number]? = some later ∧ log.listeners ⊆ later.listeners

/-- A log has a listener. -/
def HasListener (store : Store) (number : Nat) (listener : Listener) : Prop :=
  ∃ (log : TopicLog) (id : Nat), store.logs[number]? = some log ∧ (id, listener) ∈ log.listeners

/-- The log of an open topic has a listener. -/
def Tells (store : Store) (topic : String) (listener : Listener) : Prop :=
  ∃ number, store.peek? topic = some number ∧ store.HasListener number listener

variable {store middle after : Store} {topic : String} {stored : StoredLog} {number : Nat}
  {listener : Listener}

namespace Retains

theorem of_logs_eq (hlogs : after.logs = store.logs) : store.Retains after :=
  fun _ log hlog => ⟨log, hlogs ▸ hlog, List.Subset.refl _⟩

theorem trans (hfirst : store.Retains middle) (hsecond : middle.Retains after) :
    store.Retains after := by
  intro number log hlog
  obtain ⟨between, hbetween, hsub⟩ := hfirst number log hlog
  obtain ⟨later, hlater, hmore⟩ := hsecond number between hbetween
  exact ⟨later, hlater, List.Subset.trans hsub hmore⟩

end Retains

theorem HasListener.carry (hhas : store.HasListener number listener)
    (hretains : store.Retains after) : after.HasListener number listener := by
  obtain ⟨log, id, hlog, hmem⟩ := hhas
  obtain ⟨later, hlater, hsub⟩ := hretains number log hlog
  exact ⟨later, id, hlater, hsub hmem⟩

theorem Tells.carry (htells : store.Tells topic listener) (hretains : store.Retains after)
    (hopened : ∀ number, store.peek? topic = some number → after.peek? topic = some number) :
    after.Tells topic listener := by
  obtain ⟨number, hopen, hhas⟩ := htells
  exact ⟨number, hopened number hopen, hhas.carry hretains⟩

theorem retains_setLog {old log : TopicLog} (hold : store.logs[number]? = some old)
    (hsub : old.listeners ⊆ log.listeners) : store.Retains (store.setLog number log) := by
  intro count other hother
  by_cases hcount : count = number
  · subst hcount
    obtain rfl := Option.some.inj (hold.symm.trans hother)
    exact ⟨log, logs_setLog_self hold, hsub⟩
  · exact ⟨other, (List.getElem?_set_ne (Ne.symm hcount)).trans hother, List.Subset.refl _⟩

theorem retains_get (store : Store) (topic : String) : store.Retains (store.get topic).2 := by
  unfold get
  split
  · exact .of_logs_eq rfl
  · split
    · exact .of_logs_eq rfl
    · exact .of_logs_eq rfl
    · intro number log hlog
      obtain ⟨hlt, -⟩ := List.getElem?_eq_some_iff.mp hlog
      exact ⟨log, (List.getElem?_append_left hlt).trans hlog, List.Subset.refl _⟩

theorem retains_onLog {α : Type} {work : StoredLog → Except Fault α × StoredLog}
    (hwork : ∀ stored, store.stored? number = some stored →
      stored.log.listeners ⊆ (work stored).2.log.listeners) :
    store.Retains (store.onLog number work).2 := by
  unfold onLog
  cases hstored : store.stored? number with
  | none => exact .of_logs_eq rfl
  | some stored =>
    obtain ⟨log, hlog, rfl⟩ := Option.map_eq_some_iff.mp hstored
    exact (retains_setLog hlog (hwork _ hstored)).trans (.of_logs_eq rfl)

/-- Work on the log of a topic that leaves its listeners alone. -/
theorem Coherent.retains_onTopic (hcoherent : store.Coherent) (hcurrent : store.current topic = .ok stored)
    {α : Type} {work : StoredLog → Except Fault α × StoredLog}
    (hwork : (work stored).2.log.listeners = stored.log.listeners) :
    store.Retains (store.onTopic topic work).2 := by
  have hget := store.retains_get topic
  unfold onTopic
  rcases hcoherent.get_spec hcurrent with
    ⟨-, fault, hfailed⟩ | ⟨number, opened, hopened, hopen, hupdates, -⟩
  · rw [hfailed]
    exact .of_logs_eq rfl
  · rw [hopened] at hget ⊢
    refine Retains.trans hget (retains_onLog fun other hother => ?_)
    obtain ⟨log, -, -, hstored, hfound⟩ := hupdates.coherent.current_of_peek? hopen
    obtain rfl := Except.ok.inj (hfound.symm.trans hupdates.current)
    obtain rfl := Option.some.inj (hstored.symm.trans hother)
    exact hwork.symm ▸ List.Subset.refl _

theorem retains_announce (store : Store) (topic : String) : store.Retains (store.announce topic) := by
  unfold announce
  split <;> exact .of_logs_eq rfl

/-- A reader is found in its log. -/
theorem reader?_eq_some {handle : Handle} {log : TopicLog} {reader : Reader}
    (hreader : store.reader? handle = some (log, reader)) :
    store.logs[handle.log]? = some log ∧ log.reader? handle.reader = some reader := by
  obtain ⟨found, hlog, hfound⟩ := Option.bind_eq_some_iff.mp hreader
  obtain ⟨other, hother, hsame⟩ := Option.bind_eq_some_iff.mp hfound
  obtain ⟨rfl, rfl⟩ := Prod.mk.inj (Option.some.inj hsame)
  exact ⟨hlog, hother⟩

theorem logs_of_reader? {handle : Handle} {log : TopicLog} {reader : Reader}
    (hreader : store.reader? handle = some (log, reader)) : store.logs[handle.log]? = some log :=
  (reader?_eq_some hreader).1

theorem retains_onCursor (store : Store) (handle : Handle) {α : Type}
    (work : String → Directory → Cursor → Except Fault α × Cursor) :
    store.Retains (store.onCursor handle work).2 := by
  unfold onCursor
  split
  · exact .of_logs_eq rfl
  next hreader =>
    exact retains_setLog (logs_of_reader? hreader) (List.Subset.refl _)

theorem retains_seek (store : Store) (handle : Handle) (offset : Nat) :
    store.Retains (store.seek handle offset).2 := by
  unfold seek
  split
  · exact .of_logs_eq rfl
  next hreader =>
    split
    · split
      · exact .of_logs_eq rfl
      · exact retains_setLog (logs_of_reader? hreader) (List.Subset.refl _)
    · exact .of_logs_eq rfl

theorem retains_addReader (store : Store) (number : Nat) (name : String) (offset : Nat) :
    store.Retains (store.addReader number name offset).2 := by
  refine retains_onLog fun stored _ => ?_
  cases hadd : stored.log.addReader name offset with
  | error fault => exact List.Subset.refl _
  | ok added =>
    obtain ⟨cursor, -, rfl⟩ := TopicLog.addReader_eq_ok hadd
    exact List.Subset.refl _

theorem retains_removeReader (store : Store) (number : Nat) (handle : Handle) :
    store.Retains (store.removeReader number handle).2 := by
  unfold removeReader
  split
  · exact .of_logs_eq rfl
  next hlog =>
    split
    · exact retains_setLog hlog (List.Subset.refl _)
    · exact .of_logs_eq rfl

/-- A new listener joins the others. -/
theorem retains_addListener {log : TopicLog} (hlog : store.logs[number]? = some log)
    (listener : Listener) :
    store.Retains (store.addListener number listener).2 ∧
      (store.addListener number listener).2.HasListener number listener := by
  have hadded : store.addListener number listener =
      (log.nextListener, store.setLog number (log.addListener listener).2) := by
    simp only [addListener, hlog]
    rfl
  rw [hadded]
  refine ⟨retains_setLog hlog (List.subset_append_left _ _), _, log.nextListener,
    logs_setLog_self hlog, ?_⟩
  exact List.mem_append_right _ (List.mem_singleton_self _)

/-- An append leaves all listeners where they are, and tells those of its topic. -/
theorem Coherent.append_told (hcoherent : store.Coherent) (hcurrent : store.current topic = .ok stored)
    {history : Bytes} (hkeeps : stored.Keeps history) (data : Bytes) (rollSize : Nat) {now : Instant}
    (hnow : now.InCalendar) (hfits : (history ++ data).length ≤ Decimal.maxValue) :
    store.Retains (store.append topic data rollSize now).2 ∧
      ∀ listener, store.Tells topic listener → ∃ maxOffset, .appended listener topic maxOffset ∈
        (store.append topic data rollSize now).2.events.drop store.events.length := by
  obtain ⟨grown, happend, -, hgrown, -⟩ := hkeeps.append data rollSize hnow hfits
  have hworked : (stored.append data rollSize now).2.log.listeners = stored.log.listeners := by
    rw [happend]
    exact hgrown.listeners_eq
  constructor
  · have hretains : store.Retains (store.onTopic topic (·.append data rollSize now)).2 :=
      hcoherent.retains_onTopic hcurrent hworked
    unfold append
    rcases hwork : store.onTopic topic (·.append data rollSize now) with ⟨_ | _, worked⟩
    · rw [hwork] at hretains
      exact hretains
    · rw [hwork] at hretains
      exact Retains.trans hretains (retains_announce worked topic)
  · rintro listener ⟨number, hopen, log, id, hlog, hmem⟩
    obtain ⟨found, hfound, hname, hstored, hopened⟩ := hcoherent.current_of_peek? hopen
    obtain rfl := Option.some.inj (hlog.symm.trans hfound)
    obtain rfl := Except.ok.inj (hopened.symm.trans hcurrent)
    have hpeek : (store.setStored number grown).peek? topic = some number := hopen
    have hself : (store.setStored number grown).logs[number]? = some grown.log := logs_setLog_self hlog
    refine ⟨grown.log.maxOffset, ?_⟩
    simp only [append, onTopic, get, hopen, onLog, hstored, happend, announce, hpeek, Option.bind_some,
      hself, tellAppended]
    have hevents : (store.setStored number grown).events = store.events := rfl
    rw [hevents, List.drop_left, List.mem_map]
    refine ⟨(id, listener), hgrown.listeners_eq.symm ▸ hmem, ?_⟩
    rw [hgrown.topic_eq.trans hname]

end Store

end ReplicatedLog
