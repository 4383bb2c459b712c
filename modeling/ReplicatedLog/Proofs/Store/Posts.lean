import ReplicatedLog.Proofs.Log.Roster
import ReplicatedLog.Proofs.Store.Listeners

namespace ReplicatedLog

namespace Cursor

theorem offset_nextSegment (topic : String) (dir : Directory) (cursor : Cursor) :
    (nextSegment topic dir cursor).2.offset = cursor.offset := by
  unfold nextSegment
  split
  · dsimp only
    split
    · rfl
    · split
      · rfl
      · split <;> rfl
  · rfl

theorem offset_hasMore (topic : String) (dir : Directory) (cursor : Cursor) :
    (hasMore topic dir cursor).2.offset = cursor.offset := by
  fun_induction hasMore topic dir cursor with
  | case1 => rfl
  | case2 => rfl
  | case3 cursor _ _ fault moved hnext =>
    have hsame := offset_nextSegment topic dir cursor
    rw [hnext] at hsame
    exact hsame
  | case4 cursor _ _ moved hnext _ ih =>
    have hsame := offset_nextSegment topic dir cursor
    rw [hnext] at hsame
    exact ih.trans hsame

/-- To look for bytes moves a cursor into another segment at most. -/
theorem offset_nextRegion (topic : String) (dir : Directory) (cursor : Cursor) (limit : Nat) :
    (nextRegion topic dir cursor limit).2.offset = cursor.offset := by
  have hsame := offset_hasMore topic dir cursor
  unfold nextRegion
  split
  next hmore => rwa [hmore] at hsame
  next hmore => rwa [hmore] at hsame
  next hmore => rwa [hmore] at hsame

end Cursor

namespace TopicLog

variable {log after : TopicLog} {id other offset : Nat}

/-- A reader is found by its identity. -/
theorem Identified.offset?_eq_some_iff (hidentified : log.Identified) :
    log.offset? id = some offset ↔
      ∃ reader ∈ log.readers ++ log.former, reader.id = id ∧ reader.cursor.offset = offset := by
  unfold offset?
  rw [Option.map_eq_some_iff]
  constructor
  · rintro ⟨reader, hreader, rfl⟩
    exact ⟨reader, List.mem_of_find?_eq_some hreader, by simpa using List.find?_some hreader, rfl⟩
  · rintro ⟨reader, hmem, hid, rfl⟩
    obtain ⟨found, hfound⟩ := Option.isSome_iff_exists.mp
      (List.find?_isSome (p := fun reader : Reader => decide (reader.id = id)).mpr
        ⟨reader, hmem, by simpa using hid⟩)
    exact ⟨found, hfound, by rw [hidentified.eq_of_reader? hfound hmem hid]⟩

/-- A reader stands where it stood if it is still there. -/
theorem Identified.offset?_of_mem (hidentified : log.Identified) (hafter : after.Identified)
    (hkept : ∀ reader ∈ log.readers ++ log.former, reader.id = id →
      reader ∈ after.readers ++ after.former) (hstands : log.offset? id = some offset) :
    after.offset? id = some offset := by
  obtain ⟨reader, hmem, hid, hoffset⟩ := hidentified.offset?_eq_some_iff.mp hstands
  exact hafter.offset?_eq_some_iff.mpr ⟨reader, hkept reader hmem hid, hid, hoffset⟩

theorem Identified.offset?_setCursor (hidentified : log.Identified) (hne : id ≠ other)
    (cursor : Cursor) (hstands : log.offset? id = some offset) :
    (log.setCursor other cursor).offset? id = some offset := by
  refine hidentified.offset?_of_mem (hidentified.setCursor other cursor) ?_ hstands
  intro reader hmem hid
  simp only [TopicLog.setCursor, ← List.map_append, List.mem_map]
  exact ⟨reader, hmem, if_neg (hid ▸ hne)⟩

theorem Identified.offset?_addReader (hidentified : log.Identified) {name : String} {start : Nat}
    {added : Nat × TopicLog} (hadd : log.addReader name start = .ok added)
    (hstands : log.offset? id = some offset) : added.2.offset? id = some offset := by
  refine hidentified.offset?_of_mem (hidentified.addReader hadd) ?_ hstands
  obtain ⟨cursor, -, rfl⟩ := addReader_eq_ok hadd
  intro reader hmem _
  simp only [List.mem_append] at hmem ⊢
  exact hmem.imp_left Or.inl

theorem topic_addReader {name : String} {start : Nat} {added : Nat × TopicLog}
    (hadd : log.addReader name start = .ok added) : added.2.topic = log.topic := by
  obtain ⟨cursor, -, rfl⟩ := addReader_eq_ok hadd
  rfl

theorem Identified.offset?_removeReader (hidentified : log.Identified)
    (hstands : log.offset? id = some offset) :
    (log.removeReader other).offset? id = some offset := by
  refine hidentified.offset?_of_mem (hidentified.removeReader other) ?_ hstands
  intro reader hmem _
  simp only [TopicLog.removeReader, List.mem_append, List.mem_filter, decide_eq_true_eq] at hmem ⊢
  tauto

end TopicLog

namespace Store

/-- The topic of a reader, and where it stands in its log. -/
def post? (store : Store) (handle : Handle) : Option (String × Nat) :=
  store.logs[handle.log]?.bind fun log => (log.offset? handle.reader).map (log.topic, ·)

/-- The readers of each log can be told apart. -/
def Identified (store : Store) : Prop :=
  ∀ (number : Nat) (log : TopicLog), store.logs[number]? = some log → log.Identified

/-- Every reader kept its log, and no reader moved but one at most. -/
structure MovesOnly (store : Store) (moved : Option Handle) (after : Store) : Prop where
  identified : after.Identified
  topic : ∀ handle topic offset, store.post? handle = some (topic, offset) →
    ∃ later, after.post? handle = some (topic, later)
  stays : ∀ handle post, moved ≠ some handle → store.post? handle = some post →
    after.post? handle = some post

variable {store middle after : Store} {moved : Option Handle} {handle : Handle} {topic : String}
  {number offset : Nat} {log old : TopicLog} {reader : Reader}

theorem post?_eq_some_iff : store.post? handle = some (topic, offset) ↔
    ∃ log, store.logs[handle.log]? = some log ∧ log.topic = topic ∧
      log.offset? handle.reader = some offset := by
  simp [post?, Option.bind_eq_some_iff, and_comm]

theorem post?_of_reader? (hreader : store.reader? handle = some (log, reader)) :
    store.post? handle = some (log.topic, reader.cursor.offset) := by
  obtain ⟨hlog, hfound⟩ := reader?_eq_some hreader
  refine post?_eq_some_iff.mpr ⟨log, hlog, rfl, ?_⟩
  rw [TopicLog.offset?, hfound, Option.map_some]

namespace MovesOnly

theorem of_logs_eq (hidentified : store.Identified) (hlogs : after.logs = store.logs) :
    store.MovesOnly moved after := by
  have hpost : after.post? = store.post? := by
    funext handle
    rw [post?, hlogs, post?]
  refine ⟨?_, fun handle topic offset hstands => ⟨offset, hpost ▸ hstands⟩, ?_⟩
  · intro number log hlog
    exact hidentified number log (hlogs ▸ hlog)
  · intro handle post _ hstands
    rw [hpost]
    exact hstands

theorem trans (hfirst : store.MovesOnly moved middle) (hsecond : middle.MovesOnly moved after) :
    store.MovesOnly moved after where
  identified := hsecond.identified
  topic handle topic offset hstands := by
    obtain ⟨between, hbetween⟩ := hfirst.topic handle topic offset hstands
    exact hsecond.topic handle topic between hbetween
  stays handle post hne hstands := hsecond.stays handle post hne (hfirst.stays handle post hne hstands)

theorem congr (hmoves : store.MovesOnly moved middle) (hlogs : after.logs = middle.logs) :
    store.MovesOnly moved after :=
  hmoves.trans (.of_logs_eq hmoves.identified hlogs)

end MovesOnly

/-- A log that was worked on has the readers that it had, where they were. -/
theorem movesOnly_setLog (hidentified : store.Identified) (hold : store.logs[number]? = some old)
    (hlog : log.Identified) (htopic : log.topic = old.topic)
    (hpresent : ∀ id offset, old.offset? id = some offset → ∃ later, log.offset? id = some later)
    (hstays : ∀ id offset, moved ≠ some ⟨number, id⟩ → old.offset? id = some offset →
      log.offset? id = some offset) : store.MovesOnly moved (store.setLog number log) := by
  have hself : (store.setLog number log).logs[number]? = some log := logs_setLog_self hold
  have hother : ∀ count, count ≠ number → (store.setLog number log).logs[count]? = store.logs[count]? :=
    fun count hne => List.getElem?_set_ne hne.symm
  refine ⟨?_, ?_, ?_⟩
  · intro count found hfound
    by_cases hcount : count = number
    · subst hcount
      obtain rfl := Option.some.inj (hself.symm.trans hfound)
      exact hlog
    · exact hidentified count found (hother count hcount ▸ hfound)
  · intro handle topic offset hstands
    obtain ⟨found, hfound, rfl, hoffset⟩ := post?_eq_some_iff.mp hstands
    by_cases hhandle : handle.log = number
    · subst hhandle
      obtain rfl := Option.some.inj (hold.symm.trans hfound)
      obtain ⟨later, hlater⟩ := hpresent _ _ hoffset
      exact ⟨later, post?_eq_some_iff.mpr ⟨log, hself, htopic, hlater⟩⟩
    · exact ⟨offset, post?_eq_some_iff.mpr
        ⟨found, (hother _ hhandle).trans hfound, rfl, hoffset⟩⟩
  · rintro handle ⟨topic, offset⟩ hne hstands
    obtain ⟨found, hfound, rfl, hoffset⟩ := post?_eq_some_iff.mp hstands
    by_cases hhandle : handle.log = number
    · subst hhandle
      obtain rfl := Option.some.inj (hold.symm.trans hfound)
      exact post?_eq_some_iff.mpr ⟨log, hself, htopic, hstays _ _ hne hoffset⟩
    · exact post?_eq_some_iff.mpr ⟨found, (hother _ hhandle).trans hfound, rfl, hoffset⟩

/-- So it does if all its readers are where they were. -/
theorem movesOnly_setLog_of_stays (hidentified : store.Identified)
    (hold : store.logs[number]? = some old) (hlog : log.Identified) (htopic : log.topic = old.topic)
    (hstays : ∀ id offset, old.offset? id = some offset → log.offset? id = some offset) :
    store.MovesOnly moved (store.setLog number log) :=
  movesOnly_setLog hidentified hold hlog htopic (fun id offset hoffset => ⟨offset, hstays id offset hoffset⟩)
    fun id offset _ => hstays id offset

theorem movesOnly_get (hidentified : store.Identified) (topic : String) :
    store.MovesOnly moved (store.get topic).2 := by
  unfold get
  split
  · exact .of_logs_eq hidentified rfl
  · split
    · exact .of_logs_eq hidentified rfl
    · exact .of_logs_eq hidentified rfl
    next stored _ hopen =>
      have hposts : ∀ handle post, store.post? handle = some post →
          post? { store with logs := store.logs ++ [stored.log] } handle = some post := by
        rintro handle ⟨name, offset⟩ hstands
        obtain ⟨log, hlog, rfl, hoffset⟩ := post?_eq_some_iff.mp hstands
        obtain ⟨hlt, -⟩ := List.getElem?_eq_some_iff.mp hlog
        exact post?_eq_some_iff.mpr
          ⟨log, (List.getElem?_append_left hlt).trans hlog, rfl, hoffset⟩
      refine ⟨fun number log hlog => ?_, fun handle name offset hstands =>
        ⟨offset, hposts handle _ hstands⟩, fun handle post _ hstands => hposts handle post hstands⟩
      obtain hmem | hmem := List.mem_append.mp (List.mem_of_getElem? hlog)
      · obtain ⟨count, hcount⟩ := List.getElem?_of_mem hmem
        exact hidentified count log hcount
      · obtain rfl := List.mem_singleton.mp hmem
        exact StoredLog.identified_ofDirectory hopen

/-- Work on a log that leaves its readers alone. -/
theorem movesOnly_onLog (hidentified : store.Identified) {α : Type}
    {work : StoredLog → Except Fault α × StoredLog}
    (hwork : ∀ stored, (work stored).2.log.roster = stored.log.roster) :
    store.MovesOnly moved (store.onLog number work).2 := by
  unfold onLog
  cases hstored : store.stored? number with
  | none => exact .of_logs_eq hidentified rfl
  | some stored =>
    obtain ⟨log, hlog, rfl⟩ := Option.map_eq_some_iff.mp hstored
    have hroster := hwork ⟨log, store.volume.directory log.topic⟩
    have hset : store.MovesOnly moved (store.setLog number (work ⟨log, _⟩).2.log) :=
      movesOnly_setLog_of_stays hidentified hlog
        ((hidentified number log hlog).of_roster_eq hroster) (congrArg Roster.topic hroster)
        fun id offset hoffset => (TopicLog.offset?_of_roster_eq hroster id).trans hoffset
    exact hset.congr rfl

theorem movesOnly_onTopic (hidentified : store.Identified) (topic : String) {α : Type}
    {work : StoredLog → Except Fault α × StoredLog}
    (hwork : ∀ stored, (work stored).2.log.roster = stored.log.roster) :
    store.MovesOnly moved (store.onTopic topic work).2 := by
  have hget : store.MovesOnly moved (store.get topic).2 := movesOnly_get hidentified topic
  unfold onTopic
  split
  next heq => rwa [heq] at hget
  next heq =>
    rw [heq] at hget
    exact hget.trans (movesOnly_onLog hget.identified hwork)

theorem movesOnly_append (hidentified : store.Identified) (topic : String) (data : Bytes)
    (rollSize : Nat) (now : Instant) :
    store.MovesOnly moved (store.append topic data rollSize now).2 := by
  have hwork : store.MovesOnly moved (store.onTopic topic (·.append data rollSize now)).2 :=
    movesOnly_onTopic hidentified topic fun stored => stored.roster_append data rollSize now
  unfold append
  split
  next heq => rwa [heq] at hwork
  next worked heq =>
    rw [heq] at hwork
    refine hwork.congr ?_
    unfold announce
    split <;> rfl

theorem movesOnly_addReader (hidentified : store.Identified) (number : Nat) (name : String)
    (start : Nat) : store.MovesOnly moved (store.addReader number name start).2 := by
  unfold addReader onLog
  cases hstored : store.stored? number with
  | none => exact .of_logs_eq hidentified rfl
  | some stored =>
    obtain ⟨log, hlog, rfl⟩ := Option.map_eq_some_iff.mp hstored
    have hold := hidentified number log hlog
    dsimp only
    split
    · have hset : store.MovesOnly moved (store.setLog number log) :=
        movesOnly_setLog_of_stays hidentified hlog hold rfl fun id offset hoffset => hoffset
      exact hset.congr rfl
    next after hadd =>
      have hset : store.MovesOnly moved (store.setLog number after) :=
        movesOnly_setLog_of_stays hidentified hlog (hold.addReader hadd)
          (TopicLog.topic_addReader hadd) fun id offset hoffset => hold.offset?_addReader hadd hoffset
      exact hset.congr rfl

theorem movesOnly_removeReader (hidentified : store.Identified) (number : Nat) (handle : Handle) :
    store.MovesOnly moved (store.removeReader number handle).2 := by
  unfold removeReader
  split
  · exact .of_logs_eq hidentified rfl
  next log hlog =>
    split
    · have hold := hidentified number log hlog
      exact movesOnly_setLog_of_stays hidentified hlog (hold.removeReader _) rfl
        fun id offset hoffset => hold.offset?_removeReader hoffset
    · exact .of_logs_eq hidentified rfl

theorem movesOnly_addListener (hidentified : store.Identified) (number : Nat) (listener : Listener) :
    store.MovesOnly moved (store.addListener number listener).2 := by
  unfold addListener
  split
  · exact .of_logs_eq hidentified rfl
  next log hlog =>
    exact movesOnly_setLog_of_stays hidentified hlog
      ((hidentified number log hlog).of_roster_eq rfl) rfl fun id offset hoffset => hoffset

theorem movesOnly_removeListener (hidentified : store.Identified) (number id : Nat) :
    store.MovesOnly moved (store.removeListener number id).2 := by
  unfold removeListener
  split
  · exact .of_logs_eq hidentified rfl
  next log hlog =>
    exact movesOnly_setLog_of_stays hidentified hlog
      ((hidentified number log hlog).of_roster_eq rfl) rfl fun id offset hoffset => hoffset

/-- To give a reader another cursor moves no other reader. -/
theorem movesOnly_setCursor (hidentified : store.Identified)
    (hreader : store.reader? handle = some (log, reader)) {cursor : Cursor}
    (hmoved : moved = some handle ∨ cursor.offset = reader.cursor.offset) :
    store.MovesOnly moved (store.setLog handle.log (log.setCursor handle.reader cursor)) := by
  obtain ⟨hlog, hfound⟩ := reader?_eq_some hreader
  have hold := hidentified handle.log log hlog
  have hself : (log.setCursor handle.reader cursor).offset? handle.reader = some cursor.offset := by
    rw [TopicLog.offset?, TopicLog.reader?_setCursor hfound, Option.map_some]
  refine movesOnly_setLog hidentified hlog (hold.setCursor _ cursor) rfl ?_ ?_
  · intro id offset hoffset
    by_cases hid : id = handle.reader
    · exact ⟨cursor.offset, hid ▸ hself⟩
    · exact ⟨offset, hold.offset?_setCursor hid cursor hoffset⟩
  · intro id offset hne hoffset
    by_cases hid : id = handle.reader
    · subst hid
      rw [TopicLog.offset?, hfound, Option.map_some] at hoffset
      rw [hself, ← hoffset, hmoved.resolve_left hne]
    · exact hold.offset?_setCursor hid cursor hoffset

theorem movesOnly_onCursor (hidentified : store.Identified) (handle : Handle) {α : Type}
    {work : String → Directory → Cursor → Except Fault α × Cursor}
    (hmoved : moved = some handle ∨
      ∀ topic dir cursor, (work topic dir cursor).2.offset = cursor.offset) :
    store.MovesOnly moved (store.onCursor handle work).2 := by
  unfold onCursor
  split
  · exact .of_logs_eq hidentified rfl
  next hreader =>
    exact movesOnly_setCursor hidentified hreader (hmoved.imp_right fun hsame => hsame _ _ _)

theorem movesOnly_seek (hidentified : store.Identified) (handle : Handle) (offset : Nat) :
    store.MovesOnly (some handle) (store.seek handle offset).2 := by
  unfold seek
  split
  · exact .of_logs_eq hidentified rfl
  next hreader =>
    split
    · split
      · exact .of_logs_eq hidentified rfl
      · exact movesOnly_setCursor hidentified hreader (Or.inl rfl)
    · exact .of_logs_eq hidentified rfl

/-- Work on a reader stays within its log. -/
theorem logs_onCursor (store : Store) (handle : Handle) {α : Type}
    (work : String → Directory → Cursor → Except Fault α × Cursor) (hother : number ≠ handle.log) :
    (store.onCursor handle work).2.logs[number]? = store.logs[number]? := by
  unfold onCursor
  split
  · rfl
  · exact List.getElem?_set_ne hother.symm

theorem logs_seek (store : Store) (handle : Handle) (offset : Nat) (hother : number ≠ handle.log) :
    (store.seek handle offset).2.logs[number]? = store.logs[number]? := by
  unfold seek
  split
  · rfl
  · split
    · split
      · rfl
      · exact List.getElem?_set_ne hother.symm
    · rfl

theorem reader?_congr (hlog : after.logs[handle.log]? = store.logs[handle.log]?) :
    after.reader? handle = store.reader? handle := by
  rw [reader?, hlog, reader?]

end Store

end ReplicatedLog
