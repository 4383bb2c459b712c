import Mathlib.Algebra.BigOperators.Group.Finset.Basic
import ReplicatedLog.Proofs.Store.Opening
import ReplicatedLog.Proofs.Store.Writing

namespace ReplicatedLog.Store

variable {store after : Store} {topic : String} {number : Nat} {history : String → Bytes}
  {data : Bytes} {rollSize : Nat} {now : Instant}

/-- Getting a log leaves the catalog as it is, or adds a topic that was not open. -/
theorem catalog_get (hget : store.get topic = (.ok number, after)) :
    store.peek? topic = some number ∧ after.catalog = store.catalog ∨
      store.peek? topic = none ∧ after.catalog = store.catalog ++ [(topic, number)] := by
  unfold get at hget
  cases hopen : store.peek? topic with
  | some found =>
    simp only [hopen, Prod.mk.injEq, Except.ok.injEq] at hget
    obtain ⟨rfl, rfl⟩ := hget
    exact .inl ⟨rfl, rfl⟩
  | none =>
    simp only [hopen] at hget
    split at hget
    · simp at hget
    · simp at hget
    · obtain ⟨hnumber, rfl⟩ := Prod.mk.inj hget
      obtain rfl := Except.ok.inj hnumber
      exact .inr ⟨rfl, rfl⟩

theorem catalog_announce (store : Store) (topic : String) :
    (store.announce topic).catalog = store.catalog := by
  unfold announce
  split <;> rfl

theorem catalog_append {maxOffset : Nat}
    (happend : store.append topic data rollSize now = (.ok maxOffset, after)) :
    ∃ number, store.peek? topic = some number ∧ after.catalog = store.catalog ∨
      store.peek? topic = none ∧ after.catalog = store.catalog ++ [(topic, number)] := by
  unfold append onTopic at happend
  rcases hget : store.get topic with ⟨_ | number, opened⟩
  · simp [hget] at happend
  · simp only [hget, onLog] at happend
    cases hstored : opened.stored? number with
    | none => simp [hstored] at happend
    | some stored =>
      simp only [hstored] at happend
      split at happend
      · simp at happend
      · next worked hwork =>
        obtain ⟨_, rfl⟩ := Prod.mk.inj happend
        obtain ⟨_, rfl⟩ := Prod.mk.inj hwork
        have hopened := catalog_get hget
        refine ⟨number, ?_⟩
        rw [catalog_announce]
        exact hopened

/-- A topic that was added to is open. -/
theorem peek?_append {maxOffset : Nat}
    (happend : store.append topic data rollSize now = (.ok maxOffset, after)) :
    ∃ number, after.peek? topic = some number := by
  obtain ⟨number, ⟨hopen, hcatalog⟩ | ⟨hopen, hcatalog⟩⟩ := catalog_append happend
  · exact ⟨number, by rwa [peek?, hcatalog]⟩
  · have hlookup : store.catalog.lookup topic = none := hopen
    refine ⟨number, ?_⟩
    rw [peek?, hcatalog, List.lookup_append, hlookup]
    simp

/-- No other topic is opened on the way. -/
theorem peek?_append_of_ne {maxOffset : Nat} {other : String}
    (happend : store.append topic data rollSize now = (.ok maxOffset, after)) (hne : other ≠ topic) :
    after.peek? other = store.peek? other := by
  obtain ⟨number, ⟨-, hcatalog⟩ | ⟨-, hcatalog⟩⟩ := catalog_append happend
  · rw [peek?, hcatalog, peek?]
  · rw [peek?, hcatalog, List.lookup_append, List.lookup_cons, beq_false_of_ne hne]
    exact Option.or_none

theorem nodup_append {maxOffset : Nat}
    (happend : store.append topic data rollSize now = (.ok maxOffset, after))
    (hdistinct : (store.catalog.map (·.1)).Nodup) : (after.catalog.map (·.1)).Nodup := by
  obtain ⟨number, ⟨-, hcatalog⟩ | ⟨hopen, hcatalog⟩⟩ := catalog_append happend
  · rwa [hcatalog]
  · rw [hcatalog, List.map_append]
    refine hdistinct.append (List.nodup_singleton _) ?_
    intro name hmem hnew
    obtain rfl := List.mem_singleton.mp hnew
    obtain ⟨entry, hentry, rfl⟩ := List.mem_map.mp hmem
    have hnone := List.lookup_eq_none_iff.mp hopen entry hentry
    simp at hnone

/-- Every log starts at zero and has of its topic what `history` tells. Only topics that can have a
    directory are open, each of them once. -/
structure Records (store : Store) (history : String → Bytes) : Prop where
  coherent : store.Coherent
  named : store.Named
  distinct : (store.catalog.map (·.1)).Nodup
  short : ∀ topic number, store.peek? topic = some number → topic.utf8ByteSize ≤ maxNameLength
  opened : ∀ topic, history topic ≠ [] → ∃ number, store.peek? topic = some number
  keeps : ∀ topic, topic.utf8ByteSize ≤ maxNameLength →
    ∃ stored, store.current topic = .ok stored ∧ stored.Keeps (history topic) ∧
      stored.log.firstOffset = 0

theorem mem_catalog_of_peek? (hopen : store.peek? topic = some number) :
    (topic, number) ∈ store.catalog := by
  obtain ⟨front, back, hcatalog, -⟩ := List.lookup_eq_some_iff.mp hopen
  rw [hcatalog]
  simp

namespace Records

/-- A volume on which all logs are empty, before anything is opened. -/
theorem of_volume {volume : Volume} (hvolume : volume.Stores (fun _ => 0) fun _ => []) :
    Records { volume } fun _ => [] where
  coherent _ _ hopen := by cases hopen
  named _ _ hopen := by cases hopen
  distinct := List.nodup_nil
  short _ _ hopen := by cases hopen
  opened _ hne := absurd rfl hne
  keeps topic hshort := by
    obtain ⟨stored, hopen, hkeeps, hfirst, -⟩ := (hvolume topic hshort).exists_keeps
    exact ⟨stored, hopen, hkeeps, hfirst⟩

theorem endOf_eq (hrecords : store.Records history) (hshort : topic.utf8ByteSize ≤ maxNameLength)
    {stored : StoredLog} (hcurrent : store.current topic = .ok stored) :
    stored.log.maxOffset = (history topic).length := by
  obtain ⟨found, hfound, hkeeps, -⟩ := hrecords.keeps topic hshort
  obtain rfl := Except.ok.inj (hfound.symm.trans hcurrent)
  exact hkeeps.1.symm

/-- Only a topic with a valid name can be added to. -/
theorem append_of_invalid (hrecords : store.Records history) (hinvalid : ¬ Topic.IsValid topic)
    (data : Bytes) (rollSize : Nat) (now : Instant) :
    ∃ fault, store.append topic data rollSize now = (.error fault, store) := by
  have hopen : store.peek? topic = none := by
    cases hopen : store.peek? topic with
    | none => rfl
    | some number => exact absurd (hrecords.named topic number hopen) hinvalid
  refine ⟨.setting (.topicName topic), ?_⟩
  simp only [append, onTopic, get, hopen, Topic.validate, if_neg hinvalid]

/-- Data that is added to a topic goes behind what it has, and no other topic is touched. -/
theorem append (hrecords : store.Records history) (hvalid : Topic.IsValid topic)
    (hshort : topic.utf8ByteSize ≤ maxNameLength) (data : Bytes) (rollSize : Nat)
    (hnow : now.InCalendar) (hfits : (history topic ++ data).length ≤ Decimal.maxValue) :
    ∃ after, store.append topic data rollSize now = (.ok (history topic ++ data).length, after) ∧
      after.Records (Function.update history topic (history topic ++ data)) := by
  obtain ⟨stored, hcurrent, hkeeps, hfirst⟩ := hrecords.keeps topic hshort
  obtain ⟨hinvalid, -⟩ | ⟨grown, after, happend, hupdates, hgrown, hlog⟩ :=
    hrecords.coherent.append_spec hcurrent hshort hkeeps data rollSize hnow hfits
  · exact absurd hvalid hinvalid
  refine ⟨after, happend, ?_⟩
  have hopened := peek?_append happend
  -- a topic that is open now was so before, unless it is the one added to
  have hbefore : ∀ other count, after.peek? other = some count → other = topic ∨
      store.peek? other = some count := by
    intro other count hopen
    by_cases hname : other = topic
    · exact .inl hname
    · exact .inr (peek?_append_of_ne happend hname ▸ hopen)
  refine ⟨hupdates.coherent, ?_, nodup_append happend hrecords.distinct, ?_, ?_, ?_⟩
  · intro other count hopen
    rcases hbefore other count hopen with rfl | hknown
    · exact hvalid
    · exact hrecords.named other count hknown
  · intro other count hopen
    rcases hbefore other count hopen with rfl | hknown
    · exact hshort
    · exact hrecords.short other count hknown
  · intro other hsome
    by_cases hname : other = topic
    · rw [hname]
      exact hopened
    · rw [Function.update_of_ne hname] at hsome
      rw [peek?_append_of_ne happend hname]
      exact hrecords.opened other hsome
  · intro other hother
    by_cases hname : other = topic
    · subst hname
      rw [Function.update_self]
      exact ⟨grown, hupdates.current, hgrown, hlog.firstOffset_eq.trans hfirst⟩
    · obtain ⟨old, hold, holdKeeps, holdFirst⟩ := hrecords.keeps other hother
      obtain ⟨same, hsame, hlogSame⟩ := hupdates.others other old hname hother hold
      rw [Function.update_of_ne hname]
      refine ⟨same, hsame, hlogSame.keeps holdKeeps, ?_⟩
      rw [hlogSame.log]
      exact holdFirst

/-- An open log is listed in the catalog under its number, and it ends where its history does. -/
theorem maxOffset_of_mem (hrecords : store.Records history) {entry : String × Nat}
    (hmem : entry ∈ store.catalog) :
    store.logs[entry.2]?.map (·.maxOffset) = some (history entry.1).length := by
  have hopen : store.peek? entry.1 = some entry.2 := by
    obtain ⟨front, back, hcatalog⟩ := List.append_of_mem hmem
    refine List.lookup_eq_some_iff.mpr ⟨front, back, hcatalog, ?_⟩
    intro other hother
    have hnodup := hrecords.distinct
    rw [hcatalog, List.map_append, List.map_cons] at hnodup
    have hapart := (List.nodup_append.mp hnodup).2.2 other.1 (List.mem_map_of_mem hother) entry.1
      List.mem_cons_self
    exact bne_iff_ne.mpr hapart.symm
  obtain ⟨log, hlog, -, -, hcurrent⟩ := hrecords.coherent.current_of_peek? hopen
  have hend := hrecords.endOf_eq (hrecords.short _ _ hopen) hcurrent
  rw [hlog, Option.map_some, ← hend]

/-- The ends of the open logs add up to the lengths of all that was added. -/
theorem totalBytes_eq (hrecords : store.Records history) {topics : Finset String}
    (htopics : ∀ topic, history topic ≠ [] → topic ∈ topics) :
    store.totalBytes = ∑ topic ∈ topics, (history topic).length := by
  let known := (store.catalog.map (·.1)).toFinset
  have hcatalog : store.totalBytes = ∑ topic ∈ known, (history topic).length := by
    have hends : store.catalog.filterMap (fun entry => store.logs[entry.2]?.map (·.maxOffset)) =
        (store.catalog.map (·.1)).map fun topic => (history topic).length := by
      rw [List.map_map, ← List.filterMap_eq_map]
      exact List.filterMap_congr fun entry hmem => hrecords.maxOffset_of_mem hmem
    rw [totalBytes, hends, List.sum_toFinset _ hrecords.distinct]
    rfl
  have hempty : ∀ topic, topic ∉ known → (history topic).length = 0 := by
    intro topic hunknown
    by_contra hne
    obtain ⟨number, hopen⟩ := hrecords.opened topic fun hnil => hne (by rw [hnil]; rfl)
    apply hunknown
    exact List.mem_toFinset.mpr (List.mem_map_of_mem (f := (·.1)) (mem_catalog_of_peek? hopen))
  have houtside : ∀ topic, topic ∉ topics → (history topic).length = 0 := by
    intro topic hnot
    by_contra hne
    exact hnot (htopics topic fun hnil => hne (by rw [hnil]; rfl))
  calc store.totalBytes = ∑ topic ∈ known, (history topic).length := hcatalog
    _ = ∑ topic ∈ known ∪ topics, (history topic).length :=
      Finset.sum_subset Finset.subset_union_left fun topic _ hnot => hempty topic hnot
    _ = ∑ topic ∈ topics, (history topic).length :=
      (Finset.sum_subset Finset.subset_union_right fun topic _ hnot => houtside topic hnot).symm

end Records

end ReplicatedLog.Store
