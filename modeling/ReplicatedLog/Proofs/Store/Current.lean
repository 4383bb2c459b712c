import ReplicatedLog.Proofs.Disk.Volume
import ReplicatedLog.Proofs.Log.Layout
import ReplicatedLog.Store.Basic

namespace ReplicatedLog

namespace StoredLog

/-- One log, while identities were given out to files elsewhere. -/
structure Same (stored other : StoredLog) : Prop where
  log : other.log = stored.log
  place : other.dir.place = stored.dir.place
  nextId : stored.dir.nextId ≤ other.dir.nextId

theorem Same.refl (stored : StoredLog) : stored.Same stored :=
  ⟨rfl, rfl, le_rfl⟩

theorem Same.trans {first second third : StoredLog} (hfirst : first.Same second)
    (hsecond : second.Same third) : first.Same third :=
  ⟨hsecond.log.trans hfirst.log, hsecond.place.trans hfirst.place,
    hfirst.nextId.trans hsecond.nextId⟩

theorem Same.laid {stored other : StoredLog} {parts : List Part} (hsame : stored.Same other)
    (hlaid : stored.Laid parts) : other.Laid parts := by
  have heq : other = { stored with dir := { stored.dir with nextId := other.dir.nextId } } := by
    obtain ⟨log, place, nextId⟩ := other
    obtain ⟨rfl, rfl, -⟩ := hsame
    rfl
  rw [heq]
  exact hlaid.of_files_eq (hlaid.sound.of_nextId_le hsame.nextId) rfl

/-- Opening a directory does not depend on the identities given out. -/
theorem ofDirectory_nextId {topic : String} {dir : Directory} {stored : StoredLog} {nextId : Nat}
    (hopen : ofDirectory topic dir = .ok stored) :
    ofDirectory topic { dir with nextId } =
      .ok { stored with dir := { stored.dir with nextId } } := by
  have hscan : scan { dir with nextId } = scan dir := rfl
  cases hsegments : scan dir with
  | error fault => simp [ofDirectory, reload, hsegments, bind, Except.bind] at hopen
  | ok found =>
    simp only [ofDirectory, reload, hsegments, bind, Except.bind, Except.ok.injEq] at hopen
    subst hopen
    simp [ofDirectory, reload, hscan, hsegments, bind, Except.bind]

end StoredLog

namespace Store

/-- The log of a topic, as it is open or as its directory holds it. -/
def current (store : Store) (topic : String) : Except Fault StoredLog :=
  match store.peek? topic with
  | none => StoredLog.ofDirectory topic (store.volume.directory topic)
  | some number =>
    match store.stored? number with
    | none => .error (.session (.logGone topic ""))
    | some stored => .ok stored

/-- The catalog knows every log under its own topic. -/
def Coherent (store : Store) : Prop :=
  ∀ topic number, store.peek? topic = some number →
    ∃ log, store.logs[number]? = some log ∧ log.topic = topic

/-- The log of one topic became `stored`; those of other topics are what they were, and open topics
    stay open. -/
structure Updates (store : Store) (topic : String) (stored : StoredLog) (after : Store) : Prop where
  coherent : after.Coherent
  current : after.current topic = .ok stored
  others : ∀ other old, other ≠ topic → other.utf8ByteSize ≤ maxNameLength →
    store.current other = .ok old → ∃ same, after.current other = .ok same ∧ old.Same same
  opened : ∀ other number, store.peek? other = some number → after.peek? other = some number

variable {store after : Store} {topic : String} {stored : StoredLog} {number : Nat}

theorem Updates.trans {middle last : Store} {between : StoredLog}
    (hfirst : store.Updates topic between middle) (hsecond : middle.Updates topic stored last) :
    store.Updates topic stored last where
  coherent := hsecond.coherent
  current := hsecond.current
  others other old hne hshort hold := by
    obtain ⟨same, hsame, hfirstSame⟩ := hfirst.others other old hne hshort hold
    obtain ⟨later, hlater, hsecondSame⟩ := hsecond.others other same hne hshort hsame
    exact ⟨later, hlater, hfirstSame.trans hsecondSame⟩
  opened other number hopen := hsecond.opened other number (hfirst.opened other number hopen)

theorem Coherent.updates_self (hcoherent : store.Coherent)
    (hcurrent : store.current topic = .ok stored) : store.Updates topic stored store where
  coherent := hcoherent
  current := hcurrent
  others _ old _ _ hold := ⟨old, hold, .refl old⟩
  opened _ _ hopen := hopen

/-- Events and marks are no part of what a store holds. -/
theorem Updates.congr (hupdates : store.Updates topic stored after) {other : Store}
    (hvolume : other.volume = after.volume) (hlogs : other.logs = after.logs)
    (hcatalog : other.catalog = after.catalog) : store.Updates topic stored other := by
  have hpeek : ∀ topic, other.peek? topic = after.peek? topic := by
    intro topic
    simp only [peek?, hcatalog]
  have hcurrent : ∀ topic, other.current topic = after.current topic := by
    intro topic
    simp only [Store.current, hpeek, stored?, hvolume, hlogs]
  refine ⟨?_, (hcurrent topic).trans hupdates.current, ?_, ?_⟩
  · intro topic number hopen
    rw [hlogs]
    exact hupdates.coherent topic number (hpeek topic ▸ hopen)
  · intro name old hne hshort hold
    rw [hcurrent]
    exact hupdates.others name old hne hshort hold
  · intro name number hopen
    rw [hpeek]
    exact hupdates.opened name number hopen

theorem Coherent.current_of_peek? (hcoherent : store.Coherent)
    (hopen : store.peek? topic = some number) :
    ∃ log, store.logs[number]? = some log ∧ log.topic = topic ∧
      store.stored? number = some ⟨log, store.volume.directory topic⟩ ∧
      store.current topic = .ok ⟨log, store.volume.directory topic⟩ := by
  obtain ⟨log, hlog, rfl⟩ := hcoherent topic number hopen
  have hstored : store.stored? number = some ⟨log, store.volume.directory log.topic⟩ := by
    rw [stored?, hlog, Option.map_some]
  exact ⟨log, hlog, rfl, hstored, by simp only [current, hopen, hstored]⟩

/-- The log of a topic bears its name and lies in its directory. -/
theorem Coherent.topic_of_current (hcoherent : store.Coherent)
    (hcurrent : store.current topic = .ok stored) :
    stored.log.topic = topic ∧ stored.dir = store.volume.directory topic := by
  cases hopen : store.peek? topic with
  | none =>
    simp only [current, hopen] at hcurrent
    exact StoredLog.topic_of_ofDirectory hcurrent
  | some number =>
    obtain ⟨log, -, htopic, -, hlog⟩ := hcoherent.current_of_peek? hopen
    obtain rfl := Except.ok.inj (hlog.symm.trans hcurrent)
    exact ⟨htopic, rfl⟩

/-- No log is known under two topics. -/
theorem Coherent.ne_of_ne (hcoherent : store.Coherent) {other : String} {count : Nat}
    (hopen : store.peek? topic = some number) (hother : store.peek? other = some count)
    (hne : other ≠ topic) : count ≠ number := by
  rintro rfl
  obtain ⟨log, hlog, rfl⟩ := hcoherent topic count hopen
  obtain ⟨same, hsame, rfl⟩ := hcoherent other count hother
  rw [hlog] at hsame
  exact hne (congrArg TopicLog.topic (Option.some.inj hsame)).symm

theorem logs_setLog_self {log old : TopicLog} (hlog : store.logs[number]? = some old) :
    (store.setLog number log).logs[number]? = some log := by
  obtain ⟨hlt, -⟩ := List.getElem?_eq_some_iff.mp hlog
  exact List.getElem?_set_self hlt

/-- Another log in place of an open one. -/
theorem Coherent.setLog (hcoherent : store.Coherent) (hopen : store.peek? topic = some number)
    {log : TopicLog} (htopic : log.topic = topic) :
    store.Updates topic ⟨log, store.volume.directory topic⟩ (store.setLog number log) := by
  obtain ⟨old, hold, hname, -, -⟩ := hcoherent.current_of_peek? hopen
  have hself : (store.setLog number log).logs[number]? = some log := logs_setLog_self hold
  have hothers : ∀ count, count ≠ number →
      (store.setLog number log).logs[count]? = store.logs[count]? :=
    fun count hne => List.getElem?_set_ne (Ne.symm hne)
  refine ⟨?_, ?_, ?_, fun _ _ hother => hother⟩
  · intro other count hother
    by_cases hcount : count = number
    · subst hcount
      refine ⟨log, hself, ?_⟩
      by_contra hne
      exact hcoherent.ne_of_ne hopen hother (fun heq => hne (htopic.trans heq.symm)) rfl
    · rw [hothers count hcount]
      exact hcoherent other count hother
  · have hpeek : (store.setLog number log).peek? topic = some number := hopen
    simp only [current, hpeek, stored?, hself, Option.map_some, htopic]
    rfl
  · intro other stored hne hshort hstored
    refine ⟨stored, ?_, .refl stored⟩
    rw [← hstored]
    cases hother : store.peek? other with
    | none =>
      have hpeek : (store.setLog number log).peek? other = none := hother
      simp only [current, hpeek, hother]
      rfl
    | some count =>
      have hpeek : (store.setLog number log).peek? other = some count := hother
      have hsame := hothers count (hcoherent.ne_of_ne hopen hother hne)
      simp only [current, hpeek, hother, stored?, hsame]
      rfl

/-- A log and its directory put back after work on both. -/
theorem Coherent.setStored (hcoherent : store.Coherent) (hopen : store.peek? topic = some number)
    (htopic : stored.log.topic = topic) (hshort : topic.utf8ByteSize ≤ maxNameLength)
    (hsound : stored.dir.Sound) (hid : store.volume.nextId ≤ stored.dir.nextId) :
    store.Updates topic stored (store.setStored number stored) := by
  obtain ⟨old, hold, -, -, -⟩ := hcoherent.current_of_peek? hopen
  have hlogs := hcoherent.setLog hopen htopic
  have hself : (store.setStored number stored).logs[number]? = some stored.log :=
    logs_setLog_self hold
  have hplace : stored.dir.place = .missing ∨ ∃ items, stored.dir.place = .folder items :=
    hsound.usable.imp_right fun hfolder => ⟨_, hfolder⟩
  have hdir : (store.setStored number stored).volume.directory topic = stored.dir := by
    change (store.volume.setDirectory stored.log.topic stored.dir).directory topic = stored.dir
    rw [htopic]
    exact Volume.directory_setDirectory_self hshort hplace
  refine ⟨hlogs.coherent, ?_, ?_, fun _ _ hother => hother⟩
  · have hpeek : (store.setStored number stored).peek? topic = some number := hopen
    simp only [current, hpeek, stored?, hself, Option.map_some, htopic, hdir]
  · intro other log hne hotherShort hlog
    have hother : (store.setStored number stored).volume.directory other =
        { store.volume.directory other with nextId := stored.dir.nextId } := by
      change (store.volume.setDirectory stored.log.topic stored.dir).directory other = _
      rw [htopic]
      exact Volume.directory_setDirectory_of_ne hne hotherShort
    cases hpeek : store.peek? other with
    | none =>
      have hpeekAfter : (store.setStored number stored).peek? other = none := hpeek
      simp only [current, hpeek] at hlog
      simp only [current, hpeekAfter, hother]
      refine ⟨_, StoredLog.ofDirectory_nextId hlog, rfl, rfl, ?_⟩
      rw [(StoredLog.topic_of_ofDirectory hlog).2]
      exact hid
    | some count =>
      have hpeekAfter : (store.setStored number stored).peek? other = some count := hpeek
      obtain ⟨found, hfound, hname, -, hcurrent⟩ := hcoherent.current_of_peek? hpeek
      obtain rfl := Except.ok.inj (hcurrent.symm.trans hlog)
      have hcount : (store.setStored number stored).logs[count]? = some found := by
        rw [← hfound]
        exact List.getElem?_set_ne (hcoherent.ne_of_ne hopen hpeek hne).symm
      simp only [current, hpeekAfter, stored?, hcount, Option.map_some, hname, hother]
      exact ⟨_, rfl, rfl, rfl, hid⟩

/-- A log that was found in its directory joins the open ones. -/
theorem Coherent.opened (hcoherent : store.Coherent) (hopen : store.peek? topic = none)
    (hcurrent : store.current topic = .ok stored) :
    store.Updates topic stored { store with
      logs := store.logs ++ [stored.log]
      catalog := store.catalog ++ [(topic, store.logs.length)] } := by
  obtain ⟨htopic, hdir⟩ := hcoherent.topic_of_current hcurrent
  let after : Store := { store with
    logs := store.logs ++ [stored.log]
    catalog := store.catalog ++ [(topic, store.logs.length)] }
  have hpeek : ∀ other, after.peek? other =
      (store.peek? other).or ([(topic, store.logs.length)].lookup other) :=
    fun other => List.lookup_append
  have hself : after.peek? topic = some store.logs.length := by
    rw [hpeek, hopen]
    simp
  have hlogs : ∀ (count : Nat) (log : TopicLog), store.logs[count]? = some log →
      after.logs[count]? = some log := by
    intro count log hlog
    obtain ⟨hlt, -⟩ := List.getElem?_eq_some_iff.mp hlog
    exact (List.getElem?_append_left hlt).trans hlog
  have hnew : after.logs[store.logs.length]? = some stored.log := List.getElem?_concat_length
  have hopened : ∀ other count, store.peek? other = some count → after.peek? other = some count := by
    intro other count hother
    rw [hpeek, hother, Option.some_or]
  have hothers : ∀ other, other ≠ topic → after.peek? other = store.peek? other := by
    intro other hne
    rw [hpeek, List.lookup_cons, beq_false_of_ne hne]
    exact Option.or_none
  refine ⟨?_, ?_, ?_, hopened⟩
  · intro other count hother
    by_cases hname : other = topic
    · subst hname
      obtain rfl := Option.some.inj (hself.symm.trans hother)
      exact ⟨stored.log, hnew, htopic⟩
    · rw [hothers other hname] at hother
      obtain ⟨log, hlog, hlogTopic⟩ := hcoherent other count hother
      exact ⟨log, hlogs count log hlog, hlogTopic⟩
  · change after.current topic = _
    have hvolume : after.volume.directory topic = stored.dir := hdir.symm
    simp only [current, hself, stored?, hnew, Option.map_some, htopic, hvolume]
  · intro other old hne _ hold
    refine ⟨old, ?_, .refl old⟩
    change after.current other = _
    cases hother : store.peek? other with
    | none =>
      simp only [current, hothers other hne, hother] at hold ⊢
      exact hold
    | some count =>
      obtain ⟨log, hlog, hlogTopic, -, hlogCurrent⟩ := hcoherent.current_of_peek? hother
      obtain rfl := Except.ok.inj (hlogCurrent.symm.trans hold)
      simp only [current, hothers other hne, hother, stored?, hlogs count log hlog,
        Option.map_some, hlogTopic]
      rfl

/-- A topic can be opened unless its name is invalid. That changes no log. -/
theorem Coherent.get_spec (hcoherent : store.Coherent)
    (hcurrent : store.current topic = .ok stored) :
    (¬ Topic.IsValid topic ∧ ∃ fault, store.get topic = (.error fault, store)) ∨
      ∃ number after, store.get topic = (.ok number, after) ∧ after.peek? topic = some number ∧
        store.Updates topic stored after ∧ after.volume = store.volume := by
  unfold get
  cases hopen : store.peek? topic with
  | some number =>
    exact Or.inr ⟨number, store, rfl, hopen, hcoherent.updates_self hcurrent, rfl⟩
  | none =>
    have hdirectory := hcurrent
    simp only [current, hopen] at hdirectory
    by_cases hvalid : Topic.IsValid topic
    · simp only [Topic.validate, if_pos hvalid, hdirectory]
      refine Or.inr ⟨_, _, rfl, ?_, (hcoherent.opened hopen hcurrent).congr rfl rfl rfl, rfl⟩
      change (store.catalog ++ [(topic, store.logs.length)]).lookup topic = _
      have hnone : store.catalog.lookup topic = none := hopen
      rw [List.lookup_append, hnone]
      simp
    · simp only [Topic.validate, if_neg hvalid]
      exact Or.inl ⟨hvalid, _, rfl⟩

/-- Work on a topic is done on its log, unless its name is invalid. -/
theorem Coherent.onTopic_spec (hcoherent : store.Coherent) {α : Type}
    (hcurrent : store.current topic = .ok stored) (hshort : topic.utf8ByteSize ≤ maxNameLength)
    (work : StoredLog → Except Fault α × StoredLog) (htopic : (work stored).2.log.topic = topic)
    (hsound : (work stored).2.dir.Sound) (hid : stored.dir.nextId ≤ (work stored).2.dir.nextId) :
    (¬ Topic.IsValid topic ∧ ∃ fault, store.onTopic topic work = (.error fault, store)) ∨
      ∃ after, store.onTopic topic work = ((work stored).1, after) ∧
        store.Updates topic (work stored).2 after := by
  rcases hcoherent.get_spec hcurrent with
    ⟨hinvalid, fault, hget⟩ | ⟨number, opened, hget, hopen, hupdates, -⟩
  · exact Or.inl ⟨hinvalid, fault, by rw [onTopic, hget]⟩
  · obtain ⟨log, -, -, hstored, hfound⟩ := hupdates.coherent.current_of_peek? hopen
    obtain rfl := Except.ok.inj (hfound.symm.trans hupdates.current)
    have hput := hupdates.coherent.setStored hopen htopic hshort hsound hid
    refine Or.inr ⟨_, ?_, hupdates.trans hput⟩
    simp only [onTopic, hget, onLog, hstored]

end Store

end ReplicatedLog
