import ReplicatedLog.Proofs.Log.Mirror
import ReplicatedLog.Proofs.Log.Roster
import ReplicatedLog.Proofs.Store.Turns
import ReplicatedLog.Proofs.Store.Writing

namespace ReplicatedLog.Store

variable {store after : Store} {topic other : String} {number : Nat} {log : TopicLog}
  {stored : StoredLog}

/-- What is known of every store that is used for nothing but to open and forget topics and to work on
    open ones. -/
structure Settled (store : Store) : Prop where
  coherent : store.Coherent
  named : store.Named
  volume : store.volume.WellFormed
  chronicled : store.Chronicled
  mirrors : ∀ topic number log, topic.utf8ByteSize ≤ maxNameLength →
    store.peek? topic = some number → store.logs[number]? = some log →
      ∃ parts, StoredLog.Mirrors ⟨log, store.volume.directory topic⟩ parts

/-- Topics other than this one are as open as they were, and their directories hold what they held. -/
structure Elsewhere (store : Store) (topic : String) (after : Store) : Prop where
  peek : ∀ other, other ≠ topic → after.peek? other = store.peek? other
  places : ∀ other, other ≠ topic →
    after.volume.places.lookup other = store.volume.places.lookup other

theorem Elsewhere.refl (store : Store) (topic : String) : store.Elsewhere topic store :=
  ⟨fun _ _ => rfl, fun _ _ => rfl⟩

theorem Elsewhere.trans {middle : Store} (hfirst : store.Elsewhere topic middle)
    (hsecond : middle.Elsewhere topic after) : store.Elsewhere topic after :=
  ⟨fun other hne => (hsecond.peek other hne).trans (hfirst.peek other hne),
    fun other hne => (hsecond.places other hne).trans (hfirst.places other hne)⟩

/-- The directory of another topic holds what it held. -/
theorem Elsewhere.place_eq (helsewhere : store.Elsewhere topic after) (hne : other ≠ topic)
    (hshort : other.utf8ByteSize ≤ maxNameLength) :
    (after.volume.directory other).place = (store.volume.directory other).place := by
  unfold Volume.directory
  simp only [helsewhere.places other hne, if_neg (Nat.not_lt.mpr hshort)]

/-- Work on the log of an open topic: the log and its directory changed, and nothing was opened or
    forgotten. -/
structure WorksOn (store : Store) (topic : String) (after : Store) : Prop where
  log : ∃ number old log, store.peek? topic = some number ∧ store.logs[number]? = some old ∧
    after.logs = store.logs.set number log ∧ log.topic = old.topic ∧
    (topic.utf8ByteSize ≤ maxNameLength →
      (∃ parts, StoredLog.Mirrors ⟨old, store.volume.directory topic⟩ parts) →
        ∃ parts, StoredLog.Mirrors ⟨log, after.volume.directory topic⟩ parts)
  catalog : after.catalog = store.catalog
  turns : ∀ topic, after.turns topic = store.turns topic
  volume : store.volume.WellFormed → after.volume.WellFormed
  places : ∀ other, other ≠ topic →
    after.volume.places.lookup other = store.volume.places.lookup other

namespace WorksOn

theorem peek?_eq (hworks : store.WorksOn topic after) (other : String) :
    after.peek? other = store.peek? other := by
  rw [peek?, peek?, hworks.catalog]

theorem elsewhere (hworks : store.WorksOn topic after) : store.Elsewhere topic after :=
  ⟨fun other _ => hworks.peek?_eq other, hworks.places⟩

end WorksOn

namespace Settled

/-- An open topic that keeps its log and its directory is in agreement with it. -/
theorem mirrors_elsewhere (hsettled : store.Settled) (helsewhere : store.Elsewhere topic after)
    (hne : other ≠ topic) (hshort : other.utf8ByteSize ≤ maxNameLength)
    (hopen : store.peek? other = some number) (hlog : store.logs[number]? = some log) :
    ∃ parts, StoredLog.Mirrors ⟨log, after.volume.directory other⟩ parts := by
  obtain ⟨parts, hmirrors⟩ := hsettled.mirrors other number log hshort hopen hlog
  exact ⟨parts, hmirrors.congr rfl rfl rfl (helsewhere.place_eq hne hshort)⟩

theorem elsewhere_withOpened (store : Store) (topic : String) (log : TopicLog) :
    store.Elsewhere topic (store.withOpened topic log) :=
  ⟨fun _ hne => peek?_withOpened_of_ne hne log, fun _ _ => rfl⟩

theorem elsewhere_withClosed (store : Store) (topic : String) (number : Nat) (log : TopicLog) :
    store.Elsewhere topic (store.withClosed topic number log) :=
  ⟨fun _ hne => peek?_withClosed_of_ne hne number log, fun _ _ => rfl⟩

/-- A topic that is opened has the log that its directory shows. -/
theorem withOpened (hsettled : store.Settled) (hopen : store.peek? topic = none)
    (hvalid : Topic.IsValid topic)
    (hfound : StoredLog.ofDirectory topic (store.volume.directory topic) = .ok stored) :
    (store.withOpened topic stored.log).Settled := by
  have hself := peek?_withOpened_self hopen stored.log
  have hlast : (store.withOpened topic stored.log).logs[store.logs.length]? = some stored.log :=
    List.getElem?_concat_length
  have hcurrent : store.current topic = .ok stored := by simp only [current, hopen, hfound]
  have hupdates := hsettled.coherent.opened hopen hcurrent
  refine ⟨(hupdates.congr rfl rfl rfl).coherent, ?_, hsettled.volume, ?_, ?_⟩
  · intro other count hother
    by_cases hname : other = topic
    · rw [hname]
      exact hvalid
    · rw [peek?_withOpened_of_ne hname] at hother
      exact hsettled.named other count hother
  · refine hsettled.chronicled.next rfl (if_pos ?_).symm ?_ fun other hne =>
      peek?_withOpened_of_ne hne stored.log
    · have hheld := hsettled.chronicled.held topic
      rw [hopen] at hheld
      simp only [reduceCtorEq, exists_false, false_iff] at hheld
      omega
    · simp [hself, hopen]
  · intro other number log hshort hother hlog
    by_cases hname : other = topic
    · subst hname
      obtain rfl := Option.some.inj (hself.symm.trans hother)
      obtain rfl := Option.some.inj (hlast.symm.trans hlog)
      obtain ⟨parts, hmirrors⟩ := StoredLog.exists_mirrors_of_open hfound
        (hsettled.volume.entries_ascending other)
        (hsettled.volume.place_ne_unnameable hshort)
      have hdir := (StoredLog.topic_of_ofDirectory hfound).2
      exact ⟨parts, hmirrors.congr rfl rfl rfl (congrArg Directory.place hdir).symm⟩
    · have helsewhere := elsewhere_withOpened store topic stored.log
      rw [helsewhere.peek other hname] at hother
      obtain ⟨old, hold, -⟩ := hsettled.coherent other number hother
      obtain ⟨hlt, -⟩ := List.getElem?_eq_some_iff.mp hold
      obtain rfl := Option.some.inj (hold.symm.trans
        ((List.getElem?_append_left hlt).symm.trans hlog))
      exact hsettled.mirrors_elsewhere helsewhere hname hshort hother hold

/-- A topic that is forgotten leaves its directory as it is. -/
theorem withClosed (hsettled : store.Settled) (hopen : store.peek? topic = some number)
    (log : TopicLog) : (store.withClosed topic number log).Settled := by
  have hself : (store.withClosed topic number log).peek? topic = none :=
    peek?_withClosed_self number log
  have helsewhere := elsewhere_withClosed store topic number log
  -- the logs of other topics have other numbers
  have hlogs : ∀ other count, other ≠ topic → store.peek? other = some count →
      (store.withClosed topic number log).logs[count]? = store.logs[count]? := by
    intro other count hne hother
    exact List.getElem?_set_ne (hsettled.coherent.ne_of_ne hopen hother hne).symm
  refine ⟨?_, ?_, hsettled.volume, ?_, ?_⟩
  · intro other count hother
    by_cases hname : other = topic
    · subst hname
      cases hself.symm.trans hother
    · rw [helsewhere.peek other hname] at hother
      rw [hlogs other count hname hother]
      exact hsettled.coherent other count hother
  · intro other count hother
    by_cases hname : other = topic
    · subst hname
      cases hself.symm.trans hother
    · exact hsettled.named other count (helsewhere.peek other hname ▸ hother)
  · refine hsettled.chronicled.next rfl (if_neg ?_).symm ?_ helsewhere.peek
    · have hheld := (hsettled.chronicled.held topic).mp ⟨number, hopen⟩
      omega
    · simp [hself, hopen]
  · intro other count kept hshort hother hkept
    by_cases hname : other = topic
    · subst hname
      cases hself.symm.trans hother
    · rw [helsewhere.peek other hname] at hother
      rw [hlogs other count hname hother] at hkept
      exact hsettled.mirrors_elsewhere helsewhere hname hshort hother hkept

/-- Work on an open log keeps everything in agreement if it keeps the log in agreement with its
    directory. -/
theorem worksOn (hsettled : store.Settled) (hworks : store.WorksOn topic after) : after.Settled := by
  obtain ⟨number, old, log, hopen, hold, hlogs, htopic, hmirrors⟩ := hworks.log
  have hself : after.logs[number]? = some log := by
    rw [hlogs]
    obtain ⟨hlt, -⟩ := List.getElem?_eq_some_iff.mp hold
    exact List.getElem?_set_self hlt
  have hothers : ∀ other count, other ≠ topic → store.peek? other = some count →
      after.logs[count]? = store.logs[count]? := by
    intro other count hne hother
    rw [hlogs]
    exact List.getElem?_set_ne (hsettled.coherent.ne_of_ne hopen hother hne).symm
  refine ⟨?_, hsettled.named.of_catalog_eq hworks.catalog, hworks.volume hsettled.volume,
    ⟨?_, ?_⟩, ?_⟩
  · intro other count hother
    rw [hworks.peek?_eq] at hother
    by_cases hname : other = topic
    · subst hname
      obtain rfl := Option.some.inj (hopen.symm.trans hother)
      obtain ⟨known, hknown, hknownTopic⟩ := hsettled.coherent other number hother
      obtain rfl := Option.some.inj (hold.symm.trans hknown)
      exact ⟨log, hself, htopic.trans hknownTopic⟩
    · rw [hothers other count hname hother]
      exact hsettled.coherent other count hother
  · intro other
    rw [hworks.turns]
    exact hsettled.chronicled.turns other
  · intro other
    rw [hworks.turns, hworks.peek?_eq]
    exact hsettled.chronicled.held other
  · intro other count kept hshort hother hkept
    rw [hworks.peek?_eq] at hother
    by_cases hname : other = topic
    · subst hname
      obtain rfl := Option.some.inj (hopen.symm.trans hother)
      obtain rfl := Option.some.inj (hself.symm.trans hkept)
      exact hmirrors hshort (hsettled.mirrors other number old hshort hopen hold)
    · rw [hothers other count hname hother] at hkept
      exact hsettled.mirrors_elsewhere hworks.elsewhere hname hshort hother hkept

end Settled
/-- Listeners that are told of bytes change nothing. -/
theorem WorksOn.announce (hworks : store.WorksOn topic after) (other : String) :
    store.WorksOn topic (after.announce other) := by
  have hsame : (after.announce other).logs = after.logs ∧
      (after.announce other).catalog = after.catalog ∧
      (after.announce other).volume = after.volume := by
    unfold Store.announce
    split <;> exact ⟨rfl, rfl, rfl⟩
  obtain ⟨hlogs, hcatalog, hvolume⟩ := hsame
  refine ⟨?_, hcatalog.trans hworks.catalog, fun topic => ?_, ?_, ?_⟩
  · rw [hlogs, hvolume]
    exact hworks.log
  · rw [turns_announce]
    exact hworks.turns topic
  · rw [hvolume]
    exact hworks.volume
  · rw [hvolume]
    exact hworks.places

/-- Work on an open log and its directory, put back behind it. -/
theorem Settled.worksOn_onLog (hsettled : store.Settled) (hopen : store.peek? topic = some number)
    {α : Type} {work : StoredLog → Except Fault α × StoredLog}
    (htopic : ∀ stored, (work stored).2.log.topic = stored.log.topic)
    (hascending : ∀ stored : StoredLog, stored.dir.entries.Ascending →
      (work stored).2.dir.entries.Ascending)
    (hmirrors : ∀ old parts, store.logs[number]? = some old →
      StoredLog.Mirrors ⟨old, store.volume.directory topic⟩ parts →
        ∃ kept, (work ⟨old, store.volume.directory topic⟩).2.Mirrors kept) :
    store.WorksOn topic (store.onLog number work).2 := by
  obtain ⟨old, hold, rfl, hstored, -⟩ := hsettled.coherent.current_of_peek? hopen
  let stored : StoredLog := ⟨old, store.volume.directory old.topic⟩
  have hname : (work stored).2.log.topic = old.topic := htopic stored
  have hwork : (store.onLog number work).2 = store.setStored number (work stored).2 := by
    simp only [onLog, hstored, stored]
  rw [hwork, setStored, hname]
  refine ⟨⟨number, old, (work stored).2.log, hopen, hold, rfl, hname, fun hshort hbefore => ?_⟩,
    rfl, fun _ => rfl, fun hvolume => ?_, fun other hne => ?_⟩
  · obtain ⟨parts, hparts⟩ := hbefore
    obtain ⟨kept, hkept⟩ := hmirrors old parts hold hparts
    refine ⟨kept, ?_⟩
    have hplace : (work stored).2.dir.place = .missing ∨
        ∃ items, (work stored).2.dir.place = .folder items :=
      hkept.usable.imp_right fun hfolder => ⟨_, hfolder⟩
    change StoredLog.Mirrors ⟨(work stored).2.log,
      (store.volume.setDirectory old.topic (work stored).2.dir).directory old.topic⟩ kept
    rw [Volume.directory_setDirectory_self hshort hplace]
    exact hkept
  · exact hvolume.setDirectory (hascending stored (hvolume.entries_ascending old.topic))
  · exact Volume.lookup_setDirectory_of_ne hne

/-- One use of a store: to open a topic or forget it, and what can be done with an open one. -/
inductive Call
  | get (topic : String)
  | remove (topic : String)
  | append (topic : String) (data : Bytes) (rollSize : Nat) (now : Instant)
  | addReader (topic name : String) (offset : Nat)
  | listen (topic : String) (listener : Listener)

/-- The topic that a call is about. -/
def Call.about : Call → String
  | .get topic | .remove topic | .append topic .. | .addReader topic .. | .listen topic _ => topic

/-- The store after a call, whether it succeeded or not. Bytes are added to the log that is open, or
    that is opened for them; only an open log gets readers and listeners. -/
def perform (store : Store) : Call → Store
  | .get topic => (store.get topic).2
  | .remove topic => (store.remove topic).2
  | .append topic data rollSize now => (store.append topic data rollSize now).2
  | .addReader topic name offset =>
    match store.peek? topic with
    | none => store
    | some number => (store.addReader number name offset).2
  | .listen topic listener =>
    match store.peek? topic with
    | none => store
    | some number => (store.addListener number listener).2

/-- A call that does not leave the years that names can tell, nor the offsets of 64 bits. -/
def Admits (store : Store) : Call → Prop
  | .append topic data _ now => now.InCalendar ∧
    ∀ stored, store.current topic = .ok stored →
      stored.Bounded ∧ stored.log.maxOffset + data.length ≤ Decimal.maxValue
  | _ => True

/-- Bytes may be added to a topic that has none. -/
theorem admits_append_of_empty {data : Bytes} {rollSize : Nat} {now : Instant}
    (hnow : now.InCalendar)
    (hempty : (store.current topic).map (fun stored => (stored.log.segments, stored.log.maxOffset)) =
      .ok ([], 0))
    (hfits : data.length ≤ Decimal.maxValue) : store.Admits (.append topic data rollSize now) := by
  refine ⟨hnow, fun stored hstored => ?_⟩
  rw [hstored] at hempty
  obtain ⟨hsegments, hend⟩ := Prod.mk.inj (Except.ok.inj hempty)
  rw [hend, Nat.zero_add]
  exact ⟨StoredLog.bounded_of_nil hsegments, hfits⟩

namespace Settled

theorem worksOn_append (hsettled : after.Settled) (hget : store.get topic = (.ok number, after))
    (hopen : after.peek? topic = some number) (data : Bytes) (rollSize : Nat) {now : Instant}
    (hnow : now.InCalendar)
    (hfits : ∀ stored, after.current topic = .ok stored →
      stored.Bounded ∧ stored.log.maxOffset + data.length ≤ Decimal.maxValue) :
    after.WorksOn topic (store.append topic data rollSize now).2 := by
  have hworks : after.WorksOn topic (after.onLog number (·.append data rollSize now)).2 := by
    refine hsettled.worksOn_onLog hopen
      (fun stored => congrArg Roster.topic (stored.roster_append data rollSize now))
      (fun stored hascending => StoredLog.ascending_append hascending data rollSize now) ?_
    intro old parts hold hparts
    obtain ⟨other, hother, -, -, hcurrent⟩ := hsettled.coherent.current_of_peek? hopen
    obtain rfl := Option.some.inj (hold.symm.trans hother)
    obtain ⟨hbounded, hlength⟩ := hfits _ hcurrent
    exact hparts.append rollSize hnow ((hparts.stop_eq hbounded).symm ▸ hlength)
  rcases append_of_get hget data rollSize now with hsilent | htold
  · rw [hsilent]
    exact hworks
  · rw [htold]
    exact hworks.announce topic

theorem get (hsettled : store.Settled) (topic : String) :
    (store.get topic).2.Settled ∧ store.Elsewhere topic (store.get topic).2 := by
  rcases store.get_cases topic with
    ⟨number, -, hget⟩ | ⟨-, fault, hget, -⟩ | ⟨hopen, stored, hvalid, hfound, hget⟩
  · rw [hget]
    exact ⟨hsettled, .refl store topic⟩
  · rw [hget]
    exact ⟨hsettled, .refl store topic⟩
  · rw [hget]
    exact ⟨hsettled.withOpened hopen hvalid hfound, elsewhere_withOpened store topic stored.log⟩

theorem remove (hsettled : store.Settled) (topic : String) :
    (store.remove topic).2.Settled ∧ store.Elsewhere topic (store.remove topic).2 := by
  cases hopen : store.peek? topic with
  | none =>
    rw [remove_of_not_open hopen]
    exact ⟨hsettled, .refl store topic⟩
  | some number =>
    obtain ⟨log, hlog, -⟩ := hsettled.coherent topic number hopen
    rw [remove_of_open hopen hlog]
    exact ⟨hsettled.withClosed hopen log, elsewhere_withClosed store topic number log⟩

theorem append (hsettled : store.Settled) (topic : String) (data : Bytes) (rollSize : Nat)
    {now : Instant} (hadmits : store.Admits (.append topic data rollSize now)) :
    (store.append topic data rollSize now).2.Settled ∧
      store.Elsewhere topic (store.append topic data rollSize now).2 := by
  obtain ⟨hnow, hfits⟩ := hadmits
  rcases store.get_cases topic with
    ⟨number, hopen, hget⟩ | ⟨-, fault, hget, -⟩ | ⟨hopen, stored, hvalid, hfound, hget⟩
  · have hworks := hsettled.worksOn_append hget hopen data rollSize hnow hfits
    exact ⟨hsettled.worksOn hworks, hworks.elsewhere⟩
  · have hsame : store.append topic data rollSize now = (.error fault, store) := by
      simp only [Store.append, onTopic, hget]
    rw [hsame]
    exact ⟨hsettled, .refl store topic⟩
  · have hcurrent : store.current topic = .ok stored := by simp only [current, hopen, hfound]
    have hopened := hsettled.withOpened hopen hvalid hfound
    have hself := peek?_withOpened_self hopen stored.log
    have hlast : (store.withOpened topic stored.log).logs[store.logs.length]? = some stored.log :=
      List.getElem?_concat_length
    have hnext : (store.withOpened topic stored.log).current topic = .ok stored := by
      obtain ⟨log, hlog, -, -, hnext⟩ := hopened.coherent.current_of_peek? hself
      obtain rfl := Option.some.inj (hlast.symm.trans hlog)
      have hdir := (StoredLog.topic_of_ofDirectory hfound).2
      rw [hnext]
      exact congrArg (fun dir => Except.ok (StoredLog.mk stored.log dir)) hdir.symm
    have hworks := hopened.worksOn_append hget hself data rollSize hnow fun found hfoundNow => by
      obtain rfl := Except.ok.inj (hnext.symm.trans hfoundNow)
      exact hfits _ hcurrent
    exact ⟨hopened.worksOn hworks,
      (elsewhere_withOpened store topic stored.log).trans hworks.elsewhere⟩

theorem worksOn_addReader (hsettled : store.Settled) (hopen : store.peek? topic = some number)
    (name : String) (offset : Nat) :
    store.WorksOn topic (store.addReader number name offset).2 := by
  refine hsettled.worksOn_onLog hopen (fun stored => ?_) (fun stored hascending => ?_) ?_
  · cases hadd : stored.log.addReader name offset with
    | error fault => rfl
    | ok added =>
      obtain ⟨cursor, -, rfl⟩ := TopicLog.addReader_eq_ok hadd
      rfl
  · cases hadd : stored.log.addReader name offset with
    | error fault => exact hascending
    | ok added => exact hascending
  · intro old parts _ hparts
    dsimp only
    cases hadd : old.addReader name offset with
    | error fault => exact ⟨parts, hparts⟩
    | ok added =>
      obtain ⟨cursor, -, rfl⟩ := TopicLog.addReader_eq_ok hadd
      exact ⟨parts, hparts.congr rfl rfl rfl rfl⟩

theorem worksOn_addListener (hsettled : store.Settled) (hopen : store.peek? topic = some number)
    (listener : Listener) : store.WorksOn topic (store.addListener number listener).2 := by
  obtain ⟨old, hold, -⟩ := hsettled.coherent topic number hopen
  simp only [addListener, hold]
  refine ⟨⟨number, old, (old.addListener listener).2, hopen, hold, rfl, rfl, fun _ hbefore => ?_⟩,
    rfl, fun _ => rfl, id, fun _ _ => rfl⟩
  obtain ⟨parts, hparts⟩ := hbefore
  exact ⟨parts, hparts.congr rfl rfl rfl rfl⟩

/-- After every call the store is settled, and topics that the call is not about are as they were. -/
theorem perform (hsettled : store.Settled) {call : Call} (hadmits : store.Admits call) :
    (store.perform call).Settled ∧ store.Elsewhere call.about (store.perform call) := by
  cases call with
  | get topic => exact hsettled.get topic
  | remove topic => exact hsettled.remove topic
  | append topic data rollSize now => exact hsettled.append topic data rollSize hadmits
  | addReader topic name offset =>
    cases hopen : store.peek? topic with
    | none =>
      simp only [Store.perform, hopen]
      exact ⟨hsettled, .refl store topic⟩
    | some number =>
      simp only [Store.perform, hopen]
      have hworks := hsettled.worksOn_addReader hopen name offset
      exact ⟨hsettled.worksOn hworks, hworks.elsewhere⟩
  | listen topic listener =>
    cases hopen : store.peek? topic with
    | none =>
      simp only [Store.perform, hopen]
      exact ⟨hsettled, .refl store topic⟩
    | some number =>
      simp only [Store.perform, hopen]
      have hworks := hsettled.worksOn_addListener hopen listener
      exact ⟨hsettled.worksOn hworks, hworks.elsewhere⟩

end Settled

end ReplicatedLog.Store
