import ReplicatedLog.Program.Sync
import ReplicatedLog.Proofs.Disk.Checkpoint
import ReplicatedLog.Proofs.Log.Reopening
import ReplicatedLog.Proofs.Replication.Membership

namespace ReplicatedLog

/-- A log goes on at a checkpoint: as it is if it has segments, else with its end there or behind. -/
structure StoredLog.PicksUp (stored : StoredLog) (mark : Option Nat) (later : StoredLog) : Prop where
  kept : stored.log.segments ≠ [] → later.log.firstOffset = stored.log.firstOffset ∧
    later.log.maxOffset = stored.log.maxOffset
  reached : stored.log.segments = [] → ∀ offset, mark = some offset → offset ≤ later.log.maxOffset

namespace Producer

/-- What a producer has of a topic before it takes it up: what remains of its log, and nobody who
    reads it. -/
structure Finds (producer : Producer) (topic : String) (stored : StoredLog) (first : Nat)
    (history : Bytes) : Prop where
  current : producer.store.current topic = .ok stored
  remains : stored.Remains first history
  unread : stored.log.readers = []
  untouched : producer.client.publication? topic = none

variable {producer after : Producer} {topic : String} {stored later : StoredLog}
  {history more : Bytes} {first number offset : Nat} {now : Instant} {mark : Option Nat}
  {standing : Option Standing}

theorem Turns.finds_of_ne (hturns : producer.Turns topic later more standing after) {other : String}
    (hne : other ≠ topic) (hshort : other.utf8ByteSize ≤ maxNameLength)
    (hfinds : producer.Finds other stored first history) :
    ∃ same, after.Finds other same first history := by
  obtain ⟨same, hcurrent, hsame⟩ := hturns.updates.others other stored hne hshort hfinds.current
  refine ⟨same, hcurrent, ?_, hsame.log ▸ hfinds.unread,
    (hturns.touches.others other hne).trans hfinds.untouched⟩
  rcases hfinds.remains with ⟨hkeeps, hfirst⟩ | ⟨hkeeps, hempty, hfirst⟩
  · exact Or.inl ⟨hsame.keeps hkeeps, hsame.log ▸ hfirst⟩
  · exact Or.inr ⟨hsame.keeps hkeeps, hsame.log ▸ hempty, hfirst⟩

/-- A producer that starts on the files of another finds what remains of its logs. -/
theorem Shows.exists_finds (hshows : producer.Shows topic stored history standing)
    (hcoherent : producer.store.Coherent) (settings : SyncSettings) (sinks : List Sink) :
    ∃ second, Finds { store := { volume := producer.store.volume }, client := { settings }, sinks }
      topic second stored.log.firstOffset history := by
  obtain ⟨second, hopen, hremains, hunread⟩ := hshows.keeps.remains topic
  rw [(hcoherent.topic_of_current hshows.current).2] at hopen
  exact ⟨second, hopen, hremains, hunread, rfl⟩

/-- A topic that never had a byte is found as it was. -/
theorem Finds.shows_of_nil (hfinds : producer.Finds topic stored first []) :
    producer.Shows topic stored [] none ∧ stored.log.firstOffset = first := by
  obtain rfl : first = 0 := Nat.le_zero.mp hfinds.remains.first_le
  obtain ⟨hkeeps, hfirst⟩ := hfinds.remains.keeps_of_zero
  refine ⟨⟨hfinds.current, hkeeps, fun reader hmem => ?_, hfinds.untouched ▸ .absent⟩, hfirst⟩
  rw [hfinds.unread] at hmem
  cases hmem

/-- What is found of a log is the history that there is from then on. -/
theorem Finds.exists_shows (hfinds : producer.Finds topic stored first history) :
    ∃ known, producer.Shows topic stored known none := by
  have hnumbered : stored.log.Numbered := fun reader hmem => by
    rw [hfinds.unread] at hmem
    cases hmem
  have hstands : Stands producer.store topic stored.log (producer.client.publication? topic) none :=
    hfinds.untouched ▸ .absent
  rcases hfinds.remains with ⟨hkeeps, -⟩ | ⟨hkeeps, -, -⟩
  · exact ⟨history, hfinds.current, hkeeps, hnumbered, hstands⟩
  · exact ⟨[], hfinds.current, hkeeps, hnumbered, hstands⟩

/-- A log without a place is one that no publication reads. -/
theorem Shows.publication?_eq_none (hshows : producer.Shows topic stored history none) :
    producer.client.publication? topic = none := by
  have hstands := hshows.stands
  generalize producer.client.publication? topic = publication at hstands
  cases hstands with
  | absent => rfl

/-- A topic that is not replicated yet can be taken up anywhere within its log. -/
theorem Shows.takeUp_spec (hshows : producer.Shows topic stored history none)
    (hcoherent : producer.store.Coherent) (hshort : topic.utf8ByteSize ≤ maxNameLength)
    (hopen : producer.store.peek? topic = some number) (hfirst : stored.log.firstOffset ≤ offset)
    (hlast : offset ≤ stored.log.maxOffset) :
    ∃ handle client store later,
      producer.client.register producer.store number offset = (.ok handle, client, store) ∧
      producer.Turns topic later history (some ⟨offset, none⟩) { producer with client, store } ∧
      later.log.firstOffset = stored.log.firstOffset := by
  rcases hshows.addReader_spec hcoherent hshort hopen producer.client.name offset with
    ⟨fault, store, hlog, -⟩ | ⟨id, log, cursor, store, hadd, hreader, hsame, htracked, rfl, -⟩
  · obtain ⟨cursor, hplace⟩ := Cursor.exists_place hfirst hlast
    simp [TopicLog.addReader, hplace, bind, Except.bind] at hlog
  · have hopened := hreader.updates.opened topic number hopen
    rcases hreader.shows.add_spec hreader.updates.coherent ⟨number, id⟩ hopened htracked with
      ⟨hsome, -⟩ | ⟨client, joined, later, hdone, -, hjoins, hstart⟩
    · rw [hreader.shows.publication?_eq_none] at hsome
      cases hsome
    · refine ⟨⟨number, id⟩, client, joined, later, ?_, hreader.trans hjoins, hstart.trans hsame⟩
      simp only [Client.register, hadd, hdone]

/-- What is remembered of a topic gives its log back all that it had. -/
theorem Finds.recall_spec (hfinds : producer.Finds topic stored first history)
    (hcoherent : producer.store.Coherent) (hopen : producer.store.peek? topic = some number)
    (hshort : topic.utf8ByteSize ≤ maxNameLength) (hnow : now.InCalendar)
    (hfits : history.length ≤ Decimal.maxValue) (hfirst : first ≤ mark.getD 0)
    (hlast : mark.getD 0 ≤ history.length) :
    ∃ later store, (mark = none → store = producer.store) ∧
      (∀ offset, mark = some offset →
        producer.store.onLog number (·.resumeAt offset now) = (.ok (), store)) ∧
      store.logs[number]? = some later.log ∧ store.peek? topic = some number ∧
      producer.Turns topic later history none { producer with store } ∧
      later.log.firstOffset = first := by
  have hnumbered : ∀ log : TopicLog, log.readers = [] → log.Numbered := fun log hnone reader hmem => by
    rw [hnone] at hmem
    cases hmem
  have hstands : ∀ (store : Store) (log : TopicLog),
      Stands store topic log (producer.client.publication? topic) none :=
    fun store log => hfinds.untouched ▸ .absent
  obtain ⟨log, hlog, -, hstored, hcurrent⟩ := hcoherent.current_of_peek? hopen
  obtain rfl := Except.ok.inj (hcurrent.symm.trans hfinds.current)
  cases mark with
  | none =>
    obtain rfl : first = 0 := Nat.le_zero.mp hfirst
    obtain ⟨hkeeps, hstart⟩ := hfinds.remains.keeps_of_zero
    exact ⟨_, _, fun _ => rfl, nofun, hlog, hopen, ⟨hcoherent.updates_self hcurrent,
      ⟨hcurrent, hkeeps, hnumbered _ hfinds.unread, hstands _ _⟩, .refl _ _⟩, hstart⟩
  | some offset =>
    obtain ⟨later, hresume, hkeeps, hstart, htopic, hunread, hid⟩ :=
      hfinds.remains.resumeAt hnow hfits hfirst hlast
    obtain ⟨-, parts, hlaid, -⟩ := id hkeeps
    have hname := (hcoherent.topic_of_current hcurrent).1
    have hupdates := hcoherent.setStored hopen (htopic.trans hname) hshort hlaid.sound hid
    refine ⟨later, producer.store.setStored number later, nofun, ?_, ?_, hopen, ⟨hupdates,
      ⟨hupdates.current, hkeeps, hnumbered _ (hunread hfinds.unread), hstands _ _⟩, .refl _ _⟩, hstart⟩
    · rintro _ ⟨⟩
      rw [Option.getD_some] at hresume
      simp only [Store.onLog, hstored, hresume]
    · exact Store.logs_setLog_self hlog

/-- A topic that can go on at a place: what remains of its log reaches there, and so does its
    checkpoint. -/
structure Awaits (producer : Producer) (topic : String) (first place : Nat) (history : Bytes) :
    Prop where
  storable : Checkpoint.Storable topic
  finds : ∃ stored, producer.Finds topic stored first history
  marked : ∃ mark, Checkpoint.load producer.checkpoints topic = .ok mark ∧ mark.getD 0 = place
  start : first ≤ place
  reach : place ≤ history.length
  fits : history.length ≤ Decimal.maxValue

theorem Turns.awaits_of_ne (hturns : producer.Turns topic later more standing after) {other : String}
    (hne : other ≠ topic) (hsinks : after.sinks = producer.sinks)
    (hawaits : producer.Awaits other first offset history) :
    after.Awaits other first offset history := by
  obtain ⟨stored, hfinds⟩ := hawaits.finds
  have hmarked := hawaits.marked
  rw [checkpoints, ← hsinks] at hmarked
  exact ⟨hawaits.storable, hturns.finds_of_ne hne hawaits.storable.topic_short hfinds, hmarked,
    hawaits.start, hawaits.reach, hawaits.fits⟩

/-- The place of a checkpoint within a log needs no clamping. A log that starts later than at 0 has a
    checkpoint then. -/
theorem clamp_of_within {last : Nat} (hfirst : first ≤ mark.getD 0) (hlast : mark.getD 0 ≤ last) :
    min (max (mark.getD first) first) last = mark.getD 0 := by
  cases mark with
  | none =>
    obtain rfl : first = 0 := Nat.le_zero.mp hfirst
    simp
  | some offset => exact (congrArg (min · _) (max_eq_left hfirst)).trans (min_eq_left hlast)

/-- A topic goes on where its checkpoint says. -/
theorem Awaits.resume_spec (hawaits : producer.Awaits topic first offset history)
    (hcoherent : producer.store.Coherent) (hnow : now.InCalendar) :
    ∃ later after, producer.resume topic now = (.ok (), after) ∧
      producer.Turns topic later history (some ⟨offset, none⟩) after ∧
      later.log.firstOffset = first ∧ after.sinks = producer.sinks := by
  obtain ⟨hstorable, ⟨stored, hfinds⟩, ⟨mark, hload, rfl⟩, hfirst, hlast, hfits⟩ := hawaits
  have hshort := hstorable.topic_short
  rcases hcoherent.get_spec hfinds.current with
    ⟨hinvalid, -⟩ | ⟨number, opened, hget, hopen, hupdates, -⟩
  · exact absurd hstorable.valid hinvalid
  · let middle : Producer := { producer with store := opened }
    have hfound : middle.Finds topic stored first history :=
      ⟨hupdates.current, hfinds.remains, hfinds.unread, hfinds.untouched⟩
    obtain ⟨recalled, store, hnothing, hrecall, hlog, hopened, hturns, hstart⟩ :=
      hfound.recall_spec hupdates.coherent hopen hshort hnow hfits hfirst hlast
    have hlength := hturns.shows.keeps.1
    have hclamp := clamp_of_within hfirst (hlast.trans hlength.le)
    rw [← hstart] at hclamp
    obtain ⟨handle, client, registered, later, hregister, hjoins, hsame⟩ :=
      hturns.shows.takeUp_spec hturns.updates.coherent hshort hopened (hstart.trans_le hfirst)
        (hlast.trans hlength.le)
    have hrecalled : producer.Turns topic recalled history none { producer with store } :=
      ⟨hupdates.trans hturns.updates, hturns.shows, hturns.touches⟩
    refine ⟨later, { producer with client, store := registered }, ?_, hrecalled.trans hjoins,
      hsame.trans hstart, rfl⟩
    have hloaded : Checkpoint.load middle.checkpoints topic = .ok mark := hload
    dsimp only [middle] at hnothing hrecall hloaded hregister
    cases mark with
    | none =>
      obtain rfl := hnothing rfl
      simp only [resume, hget, hloaded, hlog, hclamp, hregister]
      rfl
    | some offset =>
      simp only [resume, hget, hloaded, hrecall offset rfl, hlog, hclamp, hregister]
      rfl

/-- Topics were taken up, and all others are what they were. -/
structure TakesIn (producer : Producer) (topics : List String) (after : Producer) : Prop where
  coherent : after.store.Coherent
  distinct : after.client.Distinct
  sinks : after.sinks = producer.sinks
  publications : ∀ topic ∉ topics,
    after.client.publication? topic = producer.client.publication? topic
  others : ∀ topic ∉ topics, topic.utf8ByteSize ≤ maxNameLength → ∀ stored history standing,
    producer.Shows topic stored history standing →
      ∃ same, stored.Same same ∧ after.Shows topic same history standing

theorem TakesIn.cons {middle : Producer} {topics : List String} (htakes : middle.TakesIn topics after)
    (hturns : producer.Turns topic later more standing middle)
    (hsinks : middle.sinks = producer.sinks) : producer.TakesIn (topic :: topics) after where
  coherent := htakes.coherent
  distinct := htakes.distinct
  sinks := htakes.sinks.trans hsinks
  publications other hother := by
    obtain ⟨hne, hrest⟩ := not_or.mp (mt List.mem_cons.mpr hother)
    exact (htakes.publications other hrest).trans (hturns.touches.others other hne)
  others other hother hshort stored history standing hshows := by
    obtain ⟨hne, hrest⟩ := not_or.mp (mt List.mem_cons.mpr hother)
    obtain ⟨same, hsame, hbetween⟩ := hturns.shows_of_ne hne hshort hshows
    obtain ⟨last, hlast, hafter⟩ := htakes.others other hrest hshort same history standing hbetween
    exact ⟨last, hsame.trans hlast, hafter⟩

/-- All topics go on where their checkpoints say. -/
theorem resumeAll_spec {topics : List String} {first place : String → Nat} {history : String → Bytes}
    (hnodup : topics.Nodup) (hnow : now.InCalendar) (hcoherent : producer.store.Coherent)
    (hdistinct : producer.client.Distinct)
    (hawaits : ∀ topic ∈ topics, producer.Awaits topic (first topic) (place topic) (history topic)) :
    ∃ after, resumeAll now topics producer = (.ok (), after) ∧ producer.TakesIn topics after ∧
      ∀ topic ∈ topics, ∃ later,
        after.Shows topic later (history topic) (some ⟨place topic, none⟩) ∧
        later.log.firstOffset = first topic := by
  induction topics generalizing producer with
  | nil =>
    exact ⟨producer, rfl, ⟨hcoherent, hdistinct, rfl, fun _ _ => rfl,
      fun _ _ _ stored _ _ hshows => ⟨stored, .refl stored, hshows⟩⟩, nofun⟩
  | cons topic rest ih =>
    obtain ⟨hnew, hrest⟩ := List.nodup_cons.mp hnodup
    have hhead := hawaits topic List.mem_cons_self
    obtain ⟨later, middle, hresume, hturns, hfirst, hsinks⟩ := hhead.resume_spec hcoherent hnow
    obtain ⟨after, hall, htakes, hshows⟩ := ih hrest hturns.updates.coherent
      (hturns.touches.distinct hdistinct) fun other hmem =>
        hturns.awaits_of_ne (fun heq => hnew (heq ▸ hmem)) hsinks
          (hawaits other (List.mem_cons_of_mem _ hmem))
    refine ⟨after, by simp only [resumeAll, hresume, hall], htakes.cons hturns hsinks, ?_⟩
    intro other hmem
    rcases List.mem_cons.mp hmem with rfl | hother
    · obtain ⟨same, hsame, hafter⟩ := htakes.others other hnew hhead.storable.topic_short _ _ _
        hturns.shows
      exact ⟨same, hafter, hsame.log ▸ hfirst⟩
    · exact hshows other hother

/-- Whatever offset a log is to go on at, that does not fail. -/
theorem Shows.resumeAt_spec (hshows : producer.Shows topic stored history standing)
    (hcoherent : producer.store.Coherent) (hshort : topic.utf8ByteSize ≤ maxNameLength)
    (hopen : producer.store.peek? topic = some number) (hnow : now.InCalendar)
    (hfits : offset ≤ Decimal.maxValue) :
    ∃ later more place store,
      producer.store.onLog number (·.resumeAt offset now) = (.ok (), store) ∧
      producer.Turns topic later more place { producer with store } ∧
      store.logs[number]? = some later.log ∧ stored.PicksUp (some offset) later := by
  obtain ⟨hname, hdir⟩ := hcoherent.topic_of_current hshows.current
  obtain ⟨log, hlog, -, hfound, hcurrent⟩ := hcoherent.current_of_peek? hopen
  have hstored : producer.store.stored? number = some stored :=
    hfound.trans (congrArg some (Except.ok.inj (hcurrent.symm.trans hshows.current)))
  have hwork : ∀ later, stored.resumeAt offset now = (.ok (), later) →
      producer.store.onLog number (·.resumeAt offset now) =
        (.ok (), producer.store.setStored number later) := fun later hresume => by
    simp only [Store.onLog, hstored, hresume]
  rcases hshows.keeps.resumeAt hnow hfits with
    ⟨hresume, hreached⟩ | ⟨segment, dir, hresume, hkeeps, hempty, rfl, hid⟩
  · obtain ⟨-, parts, hlaid, -⟩ := id hshows.keeps
    have hupdates := hcoherent.setStored hopen hname hshort hlaid.sound (by rw [hdir]; rfl)
    exact ⟨stored, history, standing, _, hwork _ hresume, hshows.turns hupdates hshows.keeps
      hshows.numbered (.refl _) (.refl _ _) rfl, Store.logs_setLog_self hlog,
      ⟨fun _ => ⟨rfl, rfl⟩, fun hempty _ hmark => Option.some.inj hmark ▸ hreached hempty⟩⟩
  · obtain ⟨-, parts, hlaid, -⟩ := id hkeeps
    rw [hdir] at hid
    let started : StoredLog := ⟨stored.log.startedAt segment, dir⟩
    have hupdates : producer.store.Updates topic started (producer.store.setStored number started) :=
      hcoherent.setStored hopen hname hshort hlaid.sound hid
    obtain ⟨place, hstands⟩ := hshows.stands.startedAt hshows.keeps.ordered hempty segment
      fun number => hupdates.opened topic number
    exact ⟨_, _, place, _, hwork _ hresume, ⟨hupdates, ⟨hupdates.current, hkeeps,
      TopicLog.numbered_startedAt hshows.numbered segment, hstands⟩, .refl _ _⟩,
      Store.logs_setLog_self hlog,
      ⟨fun hsome => absurd hempty hsome, fun _ _ hmark => (Option.some.inj hmark).ge⟩⟩

/-- Whatever is remembered of a topic, its log can go on. -/
theorem Shows.remember_spec (hshows : producer.Shows topic stored history standing)
    (hcoherent : producer.store.Coherent) (hshort : topic.utf8ByteSize ≤ maxNameLength)
    (hopen : producer.store.peek? topic = some number) (hnow : now.InCalendar)
    (hfits : ∀ offset, mark = some offset → offset ≤ Decimal.maxValue) :
    ∃ later more place store, (mark = none → store = producer.store) ∧
      (∀ offset, mark = some offset →
        producer.store.onLog number (·.resumeAt offset now) = (.ok (), store)) ∧
      producer.Turns topic later more place { producer with store } ∧
      store.logs[number]? = some later.log ∧ stored.PicksUp mark later := by
  cases mark with
  | none =>
    obtain ⟨log, hlog, -, -, hcurrent⟩ := hcoherent.current_of_peek? hopen
    obtain rfl := Except.ok.inj (hshows.current.symm.trans hcurrent)
    exact ⟨_, history, standing, _, fun _ => rfl, nofun, hshows.turns_self hcoherent, hlog,
      ⟨fun _ => ⟨rfl, rfl⟩, fun _ => nofun⟩⟩
  | some offset =>
    obtain ⟨later, more, place, store, hwork, hturns, hlog, hpicks⟩ :=
      hshows.resumeAt_spec hcoherent hshort hopen hnow (hfits offset rfl)
    refine ⟨later, more, place, store, nofun, ?_, hturns, hlog, hpicks⟩
    rintro _ ⟨⟩
    exact hwork

/-- Whatever its checkpoint says, a topic that is taken up stands within its log: at the checkpoint,
    unless the log starts later, or has segments and ends before. -/
theorem Shows.resume_spec (hshows : producer.Shows topic stored history standing)
    (hcoherent : producer.store.Coherent) (hshort : topic.utf8ByteSize ≤ maxNameLength)
    (hnow : now.InCalendar) :
    ∃ outcome after later more place, producer.resume topic now = (outcome, after) ∧
      producer.Turns topic later more place after ∧ after.sinks = producer.sinks ∧
      (outcome = .ok () → ∃ mark, Checkpoint.load producer.checkpoints topic = .ok mark ∧
        place = some ⟨min (max (mark.getD later.log.firstOffset) later.log.firstOffset)
          later.log.maxOffset, none⟩ ∧ stored.PicksUp mark later) := by
  rcases hcoherent.get_spec hshows.current with
    ⟨-, fault, hget⟩ | ⟨number, opened, hget, hopen, hupdates, -⟩
  · exact ⟨.error fault, producer, stored, history, standing, by simp only [resume, hget],
      (hshows.turns_self hcoherent).congr rfl rfl rfl, rfl, nofun⟩
  · let middle : Producer := { producer with store := opened }
    have hstart : producer.Turns topic stored history standing middle :=
      hshows.turns hupdates hshows.keeps hshows.numbered (.refl _) (.refl _ _) rfl
    cases hload : Checkpoint.load middle.checkpoints topic with
    | error fault =>
      dsimp only [middle] at hload
      exact ⟨.error fault, middle, stored, history, standing, by simp only [resume, hget, hload, middle],
        hstart, rfl, nofun⟩
    | ok mark =>
      have hfits : ∀ offset, mark = some offset → offset ≤ Decimal.maxValue := fun offset hmark =>
        Checkpoint.le_of_load (hmark ▸ hload)
      obtain ⟨recalled, more, place, store, hnothing, hwork, hturns, hlog, hpicks⟩ :=
        hstart.shows.remember_spec hupdates.coherent hshort hopen hnow hfits
      have hopened := hturns.updates.opened topic number hopen
      let start := min (max (mark.getD recalled.log.firstOffset) recalled.log.firstOffset)
        recalled.log.maxOffset
      have hresume : producer.resume topic now =
          ((producer.client.register store number start).1.map fun _ => (),
            { producer with
              client := (producer.client.register store number start).2.1
              store := (producer.client.register store number start).2.2 }) := by
        dsimp only [middle] at hload hnothing hwork
        cases mark with
        | none =>
          obtain rfl := hnothing rfl
          simp only [resume, hget, hload, hlog, start]
        | some offset => simp only [resume, hget, hload, hwork offset rfl, hlog, start]
      rcases hturns.shows.enrol_spec hturns.updates.coherent hshort hopened start with
        ⟨fault, client, joined, later, hregister, hjoins, -⟩ | ⟨handle, client, joined, later,
          hregister, -, hjoins, hfirst, -⟩
      · rw [hresume, hregister]
        exact ⟨_, _, later, more, place, rfl, hstart.trans (hturns.trans hjoins), rfl, nofun⟩
      · rw [hresume, hregister]
        have hmax : later.log.maxOffset = recalled.log.maxOffset :=
          hjoins.shows.keeps.1.symm.trans hturns.shows.keeps.1
        refine ⟨_, _, later, more, _, rfl, hstart.trans (hturns.trans hjoins), rfl, fun _ =>
          ⟨mark, hload, ?_, ?_⟩⟩
        · rw [hfirst, hmax]
        · refine ⟨fun hsome => ?_, fun hempty => ?_⟩
          · rw [hfirst, hmax]
            exact hpicks.kept hsome
          · rw [hmax]
            exact hpicks.reached hempty

end Producer

end ReplicatedLog
