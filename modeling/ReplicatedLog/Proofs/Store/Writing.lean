import ReplicatedLog.Proofs.Log.History
import ReplicatedLog.Proofs.Store.Current
import ReplicatedLog.Replication.Service

namespace ReplicatedLog.Store

variable {store after : Store} {topic : String} {stored : StoredLog} {history : Bytes}
  {now : Instant}

theorem Updates.announce (hupdates : store.Updates topic stored after) (other : String) :
    store.Updates topic stored (after.announce other) := by
  unfold Store.announce
  split
  · exact hupdates.congr rfl rfl rfl
  · exact hupdates

/-- An append makes the history of a topic longer, unless its name is invalid. -/
theorem Coherent.append_spec (hcoherent : store.Coherent) (hcurrent : store.current topic = .ok stored)
    (hshort : topic.utf8ByteSize ≤ maxNameLength) (hkeeps : stored.Keeps history) (data : Bytes)
    (rollSize : Nat) (hnow : now.InCalendar)
    (hfits : (history ++ data).length ≤ Decimal.maxValue) :
    (¬ Topic.IsValid topic ∧
        ∃ fault, store.append topic data rollSize now = (.error fault, store)) ∨
      ∃ grown after, store.append topic data rollSize now = (.ok (history ++ data).length, after) ∧
        store.Updates topic grown after ∧ grown.Keeps (history ++ data) ∧
        stored.log.Grown data.length grown.log := by
  obtain ⟨grown, happend, hafter, hgrown, hid⟩ := hkeeps.append data rollSize hnow hfits
  obtain ⟨hname, -⟩ := hcoherent.topic_of_current hcurrent
  obtain ⟨-, parts, hlaid, -⟩ := id hafter
  have hspec := hcoherent.onTopic_spec hcurrent hshort (·.append data rollSize now)
  simp only [happend] at hspec
  unfold Store.append
  rcases hspec (hgrown.topic_eq.trans hname) hlaid.sound hid with
    ⟨hinvalid, fault, hwork⟩ | ⟨after, hwork, hupdates⟩
  · exact Or.inl ⟨hinvalid, fault, by rw [hwork]⟩
  · exact Or.inr ⟨grown, _, by rw [hwork], hupdates.announce topic, hafter, hgrown⟩

/-- Published bytes are stored exactly if they continue the log. Nothing else changes it, and only a
    name that no topic may have makes a publish fail. -/
theorem Coherent.publish_cases (hcoherent : store.Coherent)
    (hcurrent : store.current topic = .ok stored) (hshort : topic.utf8ByteSize ≤ maxNameLength)
    (hkeeps : stored.Keeps history) (hnone : stored.log.segments = [] → history = [])
    {offset : Nat} {data : Bytes} (rollSize : Nat) (hnow : now.InCalendar)
    (hfits : offset = history.length → offset + data.length ≤ Decimal.maxValue) :
    ∃ outcome after kept received, store.publish topic offset data rollSize now = (outcome, after) ∧
      store.Updates topic kept after ∧ kept.Keeps received ∧
      (kept.log.segments = [] → received = []) ∧ kept.log.firstOffset = stored.log.firstOffset ∧
      (outcome = .written ∧ offset = history.length ∧ received = history ++ data ∨
        outcome = .reset history.length ∧ offset ≠ history.length ∧ received = history ∨
        ¬ Topic.IsValid topic ∧ (∃ fault, outcome = .failed fault) ∧ received = history) := by
  obtain ⟨hname, -⟩ := hcoherent.topic_of_current hcurrent
  have hself := hcoherent.updates_self hcurrent
  have hspec := hcoherent.onTopic_spec hcurrent hshort (·.appendAt offset data rollSize now)
  unfold Store.publish Store.appendAt
  by_cases hoffset : offset = history.length
  · subst hoffset
    have hlong := hfits rfl
    rw [← List.length_append] at hlong
    obtain ⟨grown, happend, hafter, hmore, hid⟩ := hkeeps.appendAt data rollSize hnow hlong
    obtain ⟨-, parts, hlaid, -⟩ := id hafter
    obtain ⟨htopic, hsegments, hfirst⟩ : grown.log.topic = stored.log.topic ∧
        (grown.log.segments = [] → history ++ data = []) ∧
        grown.log.firstOffset = stored.log.firstOffset := by
      rcases hmore with ⟨rfl, rfl⟩ | hgrown
      · exact ⟨rfl, fun hempty => by rw [hnone hempty, List.append_nil], rfl⟩
      · exact ⟨hgrown.topic_eq, fun hempty => absurd hempty hgrown.segments_ne_nil,
          hgrown.firstOffset_eq⟩
    simp only [happend] at hspec
    rcases hspec (htopic.trans hname) hlaid.sound hid with
      ⟨hinvalid, fault, hwork⟩ | ⟨after, hwork, hupdates⟩
    · rw [hwork]
      exact ⟨_, _, stored, history, rfl, hself, hkeeps, hnone, rfl,
        Or.inr (Or.inr ⟨hinvalid, ⟨fault, rfl⟩, rfl⟩)⟩
    · rw [hwork]
      refine ⟨_, _, grown, history ++ data, rfl, ?_, hafter, hsegments, hfirst,
        Or.inl ⟨rfl, rfl, rfl⟩⟩
      by_cases hempty : data.isEmpty
      · simp only [hempty, if_true]
        exact hupdates
      · simp only [hempty]
        exact hupdates.announce topic
  · obtain ⟨hlength, parts, hlaid, -⟩ := id hkeeps
    have hmismatch := StoredLog.Laid.appendAt_of_ne (hlength ▸ hoffset) data rollSize now
    simp only [hmismatch] at hspec
    rcases hspec hname hlaid.sound le_rfl with ⟨hinvalid, fault, hwork⟩ | ⟨after, hwork, hupdates⟩
    · rw [hwork]
      exact ⟨_, _, stored, history, rfl, hself, hkeeps, hnone, rfl,
        Or.inr (Or.inr ⟨hinvalid, ⟨fault, rfl⟩, rfl⟩)⟩
    · rw [hwork, ← hlength]
      exact ⟨_, _, stored, history, rfl, hupdates, hkeeps, hnone, rfl,
        Or.inr (Or.inl ⟨rfl, hlength ▸ hoffset, rfl⟩)⟩

/-- What a publish may do, whatever the name of its topic is. -/
theorem Coherent.publish_spec (hcoherent : store.Coherent)
    (hcurrent : store.current topic = .ok stored) (hshort : topic.utf8ByteSize ≤ maxNameLength)
    (hkeeps : stored.Keeps history) (hnone : stored.log.segments = [] → history = [])
    {offset : Nat} {data : Bytes} (rollSize : Nat) (hnow : now.InCalendar)
    (hfits : offset + data.length ≤ Decimal.maxValue) :
    ∃ outcome after kept received, store.publish topic offset data rollSize now = (outcome, after) ∧
      store.Updates topic kept after ∧ kept.Keeps received ∧
      (kept.log.segments = [] → received = []) ∧ kept.log.firstOffset = stored.log.firstOffset ∧
      (outcome = .written ∧ offset = history.length ∧ received = history ++ data ∨
        outcome = .reset history.length ∧ received = history ∨
        (∃ fault, outcome = .failed fault) ∧ received = history) := by
  obtain ⟨outcome, after, kept, received, hpublish, hupdates, hafter, hempty, hfirst, hcases⟩ :=
    hcoherent.publish_cases hcurrent hshort hkeeps hnone rollSize hnow fun _ => hfits
  refine ⟨outcome, after, kept, received, hpublish, hupdates, hafter, hempty, hfirst, ?_⟩
  rcases hcases with hwritten | ⟨hreset, -, hsame⟩ | ⟨-, hfailed, hsame⟩
  · exact Or.inl hwritten
  · exact Or.inr (Or.inl ⟨hreset, hsame⟩)
  · exact Or.inr (Or.inr ⟨hfailed, hsame⟩)

/-- Only topics with valid names are open. -/
def Named (store : Store) : Prop :=
  ∀ topic number, store.peek? topic = some number → Topic.IsValid topic

namespace Named

theorem of_catalog_eq (hnamed : store.Named) (hcatalog : after.catalog = store.catalog) :
    after.Named := by
  intro topic number hopen
  apply hnamed topic number
  rw [← hopen, peek?, peek?, hcatalog]

theorem get (hnamed : store.Named) (topic : String) : (store.get topic).2.Named := by
  unfold Store.get
  cases hopen : store.peek? topic with
  | some number => exact hnamed
  | none =>
    by_cases hvalid : Topic.IsValid topic
    · simp only [Topic.validate, if_pos hvalid]
      cases StoredLog.ofDirectory topic (store.volume.directory topic) with
      | error fault => exact hnamed
      | ok stored =>
        intro other number hother
        change (store.catalog ++ [(topic, store.logs.length)]).lookup other = some number at hother
        rw [List.lookup_append] at hother
        cases hlookup : store.catalog.lookup other with
        | some count => exact hnamed other count hlookup
        | none =>
          by_cases hname : other = topic
          · rw [hname]
            exact hvalid
          · simp [hlookup, List.lookup_cons, beq_false_of_ne hname] at hother
    · simp only [Topic.validate, if_neg hvalid]
      exact hnamed

theorem onTopic (hnamed : store.Named) {α : Type} (topic : String)
    (work : StoredLog → Except Fault α × StoredLog) : (store.onTopic topic work).2.Named := by
  have hget := hnamed.get topic
  unfold Store.onTopic
  rcases hopened : store.get topic with ⟨_ | number, opened⟩
  · rw [hopened] at hget
    exact hget
  · rw [hopened] at hget
    simp only [Store.onLog]
    cases opened.stored? number with
    | none => exact hget
    | some stored => exact of_catalog_eq hget rfl

theorem announce (hnamed : store.Named) (topic : String) : (store.announce topic).Named := by
  unfold Store.announce
  split
  · exact hnamed.of_catalog_eq rfl
  · exact hnamed

theorem publish (hnamed : store.Named) (topic : String) (offset : Nat) (data : Bytes)
    (rollSize : Nat) (now : Instant) :
    (store.publish topic offset data rollSize now).2.Named := by
  have hwork := hnamed.onTopic topic (·.appendAt offset data rollSize now)
  unfold Store.publish Store.appendAt
  rcases hworked : store.onTopic topic (·.appendAt offset data rollSize now) with
    ⟨_ | _ | _, worked⟩
  · rw [hworked] at hwork
    exact hwork
  · rw [hworked] at hwork
    by_cases hempty : data.isEmpty
    · simp only [hempty, if_true]
      exact hwork
    · simp only [hempty]
      exact announce hwork topic
  · rw [hworked] at hwork
    exact hwork

/-- A publish to a name that no topic may have fails, and nothing comes of it. -/
theorem publish_of_invalid (hnamed : store.Named) (hinvalid : ¬ Topic.IsValid topic) (offset : Nat)
    (data : Bytes) (rollSize : Nat) (now : Instant) :
    ∃ fault, store.publish topic offset data rollSize now = (.failed fault, store) := by
  have hopen : store.peek? topic = none := by
    cases hopen : store.peek? topic with
    | none => rfl
    | some number => exact absurd (hnamed topic number hopen) hinvalid
  refine ⟨.setting (.topicName topic), ?_⟩
  simp only [Store.publish, Store.appendAt, Store.onTopic, Store.get, hopen, Topic.validate,
    if_neg hinvalid]

end Named

end ReplicatedLog.Store
