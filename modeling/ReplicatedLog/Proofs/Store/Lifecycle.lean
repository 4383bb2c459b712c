import ReplicatedLog.Proofs.Store.Settled

namespace ReplicatedLog.Store

variable {store after : Store} {topic other : String} {number : Nat} {log : TopicLog}
  {stored : StoredLog}

/-- Calls one behind the other lead from one store to another. -/
inductive Lives (start : Store) : List Call → Store → Prop
  | start : Lives start [] start
  | call {calls : List Call} {store : Store} (hlives : Lives start calls store) (call : Call)
      (hadmits : store.Admits call) : Lives start (calls ++ [call]) (store.perform call)

variable {start : Store} {calls : List Call}

/-- Nothing is open yet, whatever the root directory holds. -/
theorem Settled.of_volume {volume : Volume} (hvolume : volume.WellFormed) :
    Settled { volume } where
  coherent _ _ hopen := by cases hopen
  named _ _ hopen := by cases hopen
  volume := hvolume
  chronicled := by
    refine ⟨fun topic index event hevent => ?_, fun topic => ⟨?_, fun hodd => ?_⟩⟩
    · cases hevent
    · rintro ⟨number, hopen⟩
      cases hopen
    · cases hodd
  mirrors _ _ _ _ hopen := by cases hopen

theorem Settled.lives (hsettled : start.Settled) (hlives : start.Lives calls store) :
    store.Settled := by
  induction hlives with
  | start => exact hsettled
  | call hlives call hadmits ih => exact (ih.perform hadmits).1

/-- A topic that no call was about is as open as it was, and its directory holds what it held. -/
theorem Settled.untouched (hsettled : start.Settled) (hlives : start.Lives calls store)
    (hother : ∀ call ∈ calls, call.about ≠ topic) :
    store.peek? topic = start.peek? topic ∧
      (topic.utf8ByteSize ≤ maxNameLength →
        (store.volume.directory topic).place = (start.volume.directory topic).place) := by
  induction hlives with
  | start => exact ⟨rfl, fun _ => rfl⟩
  | call hlives call hadmits ih =>
    obtain ⟨hpeek, hplace⟩ := ih fun earlier hmem => hother earlier (List.mem_append_left _ hmem)
    have hne := (hother call (List.mem_append_right _ List.mem_cons_self)).symm
    have helsewhere := ((hsettled.lives hlives).perform hadmits).2
    exact ⟨(helsewhere.peek topic hne).trans hpeek,
      fun hshort => (helsewhere.place_eq hne hshort).trans (hplace hshort)⟩

/-- An open topic stays open under its number until it is removed. -/
theorem Settled.peek?_perform (hsettled : store.Settled) (hopen : store.peek? topic = some number)
    {call : Call} (hadmits : store.Admits call) (hkept : call ≠ .remove topic) :
    (store.perform call).peek? topic = some number := by
  by_cases habout : call.about = topic
  · cases call with
    | get name =>
      obtain rfl : name = topic := habout
      simp only [Store.perform, Store.get, hopen]
    | remove name => exact absurd (congrArg Call.remove habout) hkept
    | append name data rollSize now =>
      obtain rfl : name = topic := habout
      have hget : store.get name = (.ok number, store) := by simp only [Store.get, hopen]
      have hworks := hsettled.worksOn_append hget hopen data rollSize hadmits.1 hadmits.2
      exact (hworks.peek?_eq name).trans hopen
    | addReader name reader offset =>
      obtain rfl : name = topic := habout
      simp only [Store.perform, hopen]
      exact ((hsettled.worksOn_addReader hopen reader offset).peek?_eq name).trans hopen
    | listen name listener =>
      obtain rfl : name = topic := habout
      simp only [Store.perform, hopen]
      exact ((hsettled.worksOn_addListener hopen listener).peek?_eq name).trans hopen
  · exact ((hsettled.perform hadmits).2.peek topic (Ne.symm habout)).trans hopen

theorem Settled.peek?_lives (hsettled : start.Settled) (hopen : start.peek? topic = some number)
    (hlives : start.Lives calls store) (hkept : .remove topic ∉ calls) :
    store.peek? topic = some number := by
  induction hlives with
  | start => exact hopen
  | call hlives call hadmits ih =>
    rw [List.mem_append, not_or, List.mem_singleton] at hkept
    exact (hsettled.lives hlives).peek?_perform (ih hkept.1) hadmits (Ne.symm hkept.2)
/-- A topic that cannot be opened has no valid name, or its directory does not load, and the store is
    left as it is. -/
theorem get_of_refused {fault : Fault} (hrefused : (store.get topic).1 = .error fault) :
    (store.get topic).2 = store ∧ store.peek? topic = none ∧
      (¬ Topic.IsValid topic ∨
        StoredLog.ofDirectory topic (store.volume.directory topic) = .error fault) := by
  rcases store.get_cases topic with
    ⟨count, -, hget⟩ | ⟨hopen, other, hget, hcause⟩ | ⟨-, stored, -, -, hget⟩
  · rw [hget] at hrefused
    cases hrefused
  · rw [hget] at hrefused ⊢
    obtain rfl := Except.error.inj hrefused
    exact ⟨rfl, hopen, hcause⟩
  · rw [hget] at hrefused
    cases hrefused

/-- A topic that can be opened is open then, and the store tells where its log ends unless the topic was
    open before. -/
theorem Settled.exists_opened (hsettled : store.Settled)
    (hopened : (store.get topic).1 = .ok number) :
    ∃ log, (store.get topic).2.logs[number]? = some log ∧ log.topic = topic ∧
      (store.get topic).2.peek? topic = some number ∧
      (store.get topic).2.events =
        if (store.peek? topic).isSome then store.events
        else store.events ++ [.opened topic log.maxOffset] := by
  rcases store.get_cases topic with
    ⟨count, hopen, hget⟩ | ⟨-, fault, hget, -⟩ | ⟨hopen, stored, -, hfound, hget⟩
  · rw [hget] at hopened ⊢
    obtain rfl := Except.ok.inj hopened
    obtain ⟨log, hlog, htopic⟩ := hsettled.coherent topic count hopen
    exact ⟨log, hlog, htopic, hopen, by simp [hopen]⟩
  · rw [hget] at hopened
    cases hopened
  · rw [hget] at hopened ⊢
    obtain rfl := Except.ok.inj hopened
    exact ⟨stored.log, List.getElem?_concat_length, (StoredLog.topic_of_ofDirectory hfound).1,
      peek?_withOpened_self hopen stored.log, by simp [hopen, Store.withOpened]⟩

/-- A topic that is forgotten is not open any more. The store tells where its log ends, and the log has
    lost its readers and listeners and nothing else. -/
theorem Settled.exists_closed (hsettled : store.Settled) (hopen : store.peek? topic = some number) :
    ∃ log closed : TopicLog, store.logs[number]? = some log ∧
      (store.remove topic).1 = some number ∧ (store.remove topic).2.peek? topic = none ∧
      (store.remove topic).2.events = store.events ++ [.closed topic log.maxOffset] ∧
      (store.remove topic).2.logs[number]? = some closed ∧
      closed.readers = [] ∧ closed.listeners = [] ∧ closed.segments = log.segments ∧
      closed.maxOffset = log.maxOffset := by
  obtain ⟨log, hlog, -⟩ := hsettled.coherent topic number hopen
  obtain ⟨hlt, -⟩ := List.getElem?_eq_some_iff.mp hlog
  rw [remove_of_open hopen hlog]
  exact ⟨log, log.close, hlog, rfl, peek?_withClosed_self number log, rfl,
    List.getElem?_set_self hlt, rfl, rfl, rfl, rfl⟩

/-- A topic that is opened again after it was forgotten has the segments that it had. -/
theorem Settled.get_after_remove (hsettled : store.Settled) {later : Store} {between : List Call}
    (hshort : topic.utf8ByteSize ≤ maxNameLength) (hopen : store.peek? topic = some number)
    (hlog : store.logs[number]? = some log) (hlives : (store.remove topic).2.Lives between later)
    (hother : ∀ call ∈ between, call.about ≠ topic) :
    later.get topic = (.ok later.logs.length, later.withOpened topic
      { topic, segments := log.segments, maxOffset := log.maxOffset }) := by
  have hremoved := (hsettled.remove topic).1
  have hclosed : (store.remove topic).2 = store.withClosed topic number log := by
    rw [remove_of_open hopen hlog]
  obtain ⟨hpeek, hplace⟩ := hremoved.untouched hlives hother
  rw [hclosed, peek?_withClosed_self] at hpeek
  rw [hclosed] at hplace
  obtain ⟨parts, hmirrors⟩ := hsettled.mirrors topic number log hshort hopen hlog
  have hlater : StoredLog.Mirrors ⟨log, later.volume.directory topic⟩ parts :=
    hmirrors.congr rfl rfl rfl (hplace hshort)
  have hfound := hlater.ofDirectory_eq topic
  have hvalid := hsettled.named topic number hopen
  simp only [Store.get, hpeek, Topic.validate, if_pos hvalid, hfound]
  rfl

/-- How a store holds its topics: which of them are open, what it tells of them, and what they have when
    they are opened, forgotten and opened again. -/
structure Lifecycle (store : Store) : Prop where
  /-- A topic is open exactly if the last that was told of it is that it was opened. -/
  held : ∀ topic, (∃ number, store.peek? topic = some number) ↔
    ∃ maxOffset, (store.turns topic).getLast? = some (.opened topic maxOffset)
  /-- What is told of a topic takes turns. -/
  alternates : ∀ topic, TakesTurns topic (store.turns topic)
  /-- To open a topic tells where its log ends; a topic that is open already is not told of. -/
  opens : ∀ topic number, (store.get topic).1 = .ok number → ∃ log,
    (store.get topic).2.logs[number]? = some log ∧ log.topic = topic ∧
      (store.get topic).2.peek? topic = some number ∧
      (store.get topic).2.events =
        if (store.peek? topic).isSome then store.events
        else store.events ++ [.opened topic log.maxOffset]
  /-- Only an invalid name or a directory that does not load keeps a topic from being opened, and that
      leaves everything as it is. -/
  refuses : ∀ topic fault, (store.get topic).1 = .error fault →
    (store.get topic).2 = store ∧ store.peek? topic = none ∧
      (¬ Topic.IsValid topic ∨
        StoredLog.ofDirectory topic (store.volume.directory topic) = .error fault)
  /-- To add bytes tells of no topic more than to open it does. -/
  appends : ∀ topic data rollSize now other, (store.append topic data rollSize now).2.turns other =
    (store.get topic).2.turns other
  /-- Until it is removed, an open topic has the same log. -/
  reuses : ∀ topic number calls later, store.peek? topic = some number → store.Lives calls later →
    .remove topic ∉ calls → later.get topic = (.ok number, later)
  /-- To forget a topic tells where its log ends, and the log loses its readers and listeners. -/
  closes : ∀ topic number, store.peek? topic = some number → ∃ log closed : TopicLog,
    store.logs[number]? = some log ∧ (store.remove topic).1 = some number ∧
      (store.remove topic).2.peek? topic = none ∧
      (store.remove topic).2.events = store.events ++ [.closed topic log.maxOffset] ∧
      (store.remove topic).2.logs[number]? = some closed ∧
      closed.readers = [] ∧ closed.listeners = [] ∧ closed.segments = log.segments ∧
      closed.maxOffset = log.maxOffset
  /-- When it is opened again, a topic has the segments and the end that it had. -/
  reopens : ∀ topic number log between later, topic.utf8ByteSize ≤ maxNameLength →
    store.peek? topic = some number → store.logs[number]? = some log →
      (store.remove topic).2.Lives between later → (∀ call ∈ between, call.about ≠ topic) →
        ∃ fresh reopened, (later.get topic).1 = .ok fresh ∧
          (later.get topic).2.logs[fresh]? = some reopened ∧
          reopened.segments = log.segments ∧ reopened.maxOffset = log.maxOffset

/-- Whatever calls came before, the topics of a store go through their turns. -/
theorem lifecycle {volume : Volume} (hvolume : volume.WellFormed)
    (hlives : Lives { volume } calls store) : store.Lifecycle := by
  have hsettled := (Settled.of_volume hvolume).lives hlives
  constructor
  case held => exact hsettled.chronicled.open_iff
  case alternates => exact hsettled.chronicled.turns
  case opens => exact fun topic number hopened => hsettled.exists_opened hopened
  case refuses => exact fun topic fault hrefused => get_of_refused hrefused
  case appends => exact store.turns_append
  case reuses =>
    intro topic number calls later hopen hlater hkept
    simp only [get, hsettled.peek?_lives hopen hlater hkept]
  case closes => exact fun topic number hopen => hsettled.exists_closed hopen
  case reopens =>
    intro topic number log between later hshort hopen hlog hlater hother
    have hget := hsettled.get_after_remove hshort hopen hlog hlater hother
    rw [hget]
    exact ⟨_, _, rfl, List.getElem?_concat_length, rfl, rfl⟩

/-- A topic with two bytes, forgotten and opened again. -/
theorem lifecycle_two_bytes :
    let store := (Store.perform {} (.get "a")).perform (.append "a" [1, 2] 1024 ⟨0, 0⟩)
    Volume.WellFormed {} ∧ Lives {} [.get "a", .append "a" [1, 2] 1024 ⟨0, 0⟩] store ∧
      ∃ fresh reopened, ((store.remove "a").2.get "a").1 = .ok fresh ∧
        ((store.remove "a").2.get "a").2.logs[fresh]? = some reopened ∧ reopened.maxOffset = 2 := by
  intro store
  have hadmits : (Store.perform {} (.get "a")).Admits (.append "a" [1, 2] 1024 ⟨0, 0⟩) :=
    admits_append_of_empty (by decide +kernel) (by decide +kernel) (by decide)
  have hlives : Lives {} [.get "a", .append "a" [1, 2] 1024 ⟨0, 0⟩] store :=
    (Lives.start.call (.get "a") trivial).call (.append "a" [1, 2] 1024 ⟨0, 0⟩) hadmits
  have hlifecycle := lifecycle Volume.wellFormed_empty hlives
  have hopen : store.peek? "a" = some 0 := by decide +kernel
  obtain ⟨log, hlog, hend⟩ : ∃ log : TopicLog, store.logs[0]? = some log ∧ log.maxOffset = 2 := by
    have hend : store.logs[0]?.map (·.maxOffset) = some 2 := by decide +kernel
    exact Option.map_eq_some_iff.mp hend
  obtain ⟨fresh, reopened, hget, hreopened, -, hsame⟩ :=
    hlifecycle.reopens "a" 0 log [] _ (by decide +kernel) hopen hlog .start nofun
  exact ⟨Volume.wellFormed_empty, hlives, fresh, reopened, hget, hreopened, hsame.trans hend⟩

/-- A name that is too long for a directory is not noticed as long as there is no root directory. -/
theorem get_of_long_absent (hvalid : Topic.IsValid topic)
    (hlong : maxNameLength < topic.utf8ByteSize) (hopen : store.peek? topic = none)
    (hnone : store.volume.places.lookup topic = none) (hroot : store.volume.present = false) :
    store.get topic = (.ok store.logs.length, store.withOpened topic { topic }) := by
  have hdirectory : (store.volume.directory topic).place = .unnameable false := by
    simp only [Volume.directory, hnone, if_pos hlong, hroot]
  have hholds : (store.volume.directory topic).Holds [] := by
    refine ⟨?_, ?_, fun _ hmem => absurd hmem List.not_mem_nil⟩
    · simp [Directory.listing, Directory.items, hdirectory, Directory.absent, Directory.files,
        Directory.entries, Items.files, bind, Except.bind]
    · simp [Directory.files, Directory.entries, hdirectory, Items.files]
  have hfound : StoredLog.ofDirectory topic (store.volume.directory topic) =
      .ok ⟨{ topic }, store.volume.directory topic⟩ :=
    StoredLog.ofDirectory_eq_ok_iff.mpr ⟨[], hholds, rfl⟩
  simp only [get, hopen, Topic.validate, if_pos hvalid, hfound]
  rfl

/-- Once there is a root directory, a name that is too long cannot be opened. -/
theorem get_of_long_present (hvalid : Topic.IsValid topic)
    (hlong : maxNameLength < topic.utf8ByteSize) (hopen : store.peek? topic = none)
    (hnone : store.volume.places.lookup topic = none) (hroot : store.volume.present = true) :
    store.get topic = (.error (.io .nameTooLong), store) := by
  have hdirectory : (store.volume.directory topic).place = .unnameable true := by
    simp only [Volume.directory, hnone, if_pos hlong, hroot]
  have hrefused : StoredLog.ofDirectory topic (store.volume.directory topic) =
      .error (.io .nameTooLong) := by
    simp [StoredLog.ofDirectory, StoredLog.reload, StoredLog.scan, Directory.listing,
      Directory.items, hdirectory, Directory.absent, IoFault.nameTooLong, IoFault.notFound,
      Except.mapError, bind, Except.bind]
  simp only [get, hopen, Topic.validate, if_pos hvalid, hrefused]

/-- A name of more bytes than a directory can have. -/
@[irreducible] def longName : String :=
  String.ofList (List.replicate 300 'x')

theorem maxNameLength_lt_longName : maxNameLength < longName.utf8ByteSize := by
  decide +kernel

theorem longName_ne {short : String} (hshort : short.utf8ByteSize ≤ maxNameLength) :
    longName ≠ short := by
  rintro rfl
  exact absurd maxNameLength_lt_longName (Nat.not_lt.mpr hshort)

theorem toList_longName : longName.toList = List.replicate 300 'x' := by
  unfold longName
  exact String.toList_ofList

theorem isValid_longName : Topic.IsValid longName := by
  refine ⟨longName_ne (by decide), longName_ne (by decide), longName_ne (by decide), ?_⟩
  rw [toList_longName, List.all_replicate]
  decide

/-- A topic whose name is too long for a directory can be opened as long as there is no root directory.
    Once another topic made that, it cannot be opened again. -/
theorem long_name_not_reopened :
    let store := (Store.perform {} (.get longName)).perform (.append "a" [1] 1024 ⟨0, 0⟩)
    Lives {} [.get longName, .append "a" [1] 1024 ⟨0, 0⟩] store ∧
      store.peek? longName = some 0 ∧
      ((store.remove longName).2.get longName).1 = .error (.io .nameTooLong) := by
  intro store
  have hget : Store.get {} longName = (.ok 0, Store.withOpened {} longName { topic := longName }) :=
    get_of_long_absent isValid_longName maxNameLength_lt_longName rfl rfl rfl
  have hperformed : Store.perform {} (.get longName) =
      Store.withOpened {} longName { topic := longName } := by
    rw [Store.perform, hget]
  have hopened := ((Settled.of_volume Volume.wellFormed_empty).get longName).1
  rw [hget] at hopened
  have hadmits : (Store.withOpened {} longName { topic := longName }).Admits
      (.append "a" [1] 1024 ⟨0, 0⟩) :=
    admits_append_of_empty (by decide +kernel) (by decide +kernel) (by decide)
  have hlives : Lives {} [.get longName, .append "a" [1] 1024 ⟨0, 0⟩] store :=
    (Lives.start.call (.get longName) trivial).call (.append "a" [1] 1024 ⟨0, 0⟩)
      (hperformed ▸ hadmits)
  obtain ⟨hsettled, helsewhere⟩ := hopened.perform hadmits
  have hroot : ((Store.withOpened {} longName { topic := longName }).perform
      (.append "a" [1] 1024 ⟨0, 0⟩)).volume.present = true := by
    decide +kernel
  rw [← hperformed] at hsettled helsewhere hroot
  have hother : longName ≠ "a" := longName_ne (by decide)
  have hopen : store.peek? longName = some 0 := by
    rw [helsewhere.peek longName hother, hperformed]
    exact peek?_withOpened_self rfl _
  have hnone : store.volume.places.lookup longName = none := by
    rw [helsewhere.places longName hother, hperformed]
    rfl
  obtain ⟨log, hlog, -⟩ := hsettled.coherent longName 0 hopen
  refine ⟨hlives, hopen, ?_⟩
  have hclosed := volume_withClosed store longName 0 log
  rw [← hclosed] at hnone hroot
  have hrefused := get_of_long_present isValid_longName maxNameLength_lt_longName
    (peek?_withClosed_self 0 log) hnone hroot
  rw [remove_of_open hopen hlog]
  exact congrArg Prod.fst hrefused

end ReplicatedLog.Store
