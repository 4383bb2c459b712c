import ReplicatedLog.Proofs.Log.Readers
import ReplicatedLog.Proofs.Store.Current

namespace ReplicatedLog.Store

variable {store : Store} {topic : String} {stored : StoredLog} {handle : Handle} {cursor : Cursor}

/-- The log and the registered reader behind a handle. -/
theorem Coherent.reader?_eq (hcoherent : store.Coherent)
    (hopen : store.peek? topic = some handle.log) (hcurrent : store.current topic = .ok stored)
    (hfound : stored.log.cursorOf? handle.reader = some cursor) :
    ∃ reader, store.reader? handle = some (stored.log, reader) ∧ reader.cursor = cursor := by
  obtain ⟨log, hlog, -, -, hopened⟩ := hcoherent.current_of_peek? hopen
  obtain rfl := Except.ok.inj (hopened.symm.trans hcurrent)
  obtain ⟨reader, -, -, hcursor, hreader⟩ := TopicLog.exists_reader_of_cursorOf? hfound
  refine ⟨reader, ?_, hcursor⟩
  simp only [reader?, hlog, hreader, bind, Option.bind]

/-- The log of an open topic can be exchanged for one with the same directory. -/
theorem Coherent.updates_setLog (hcoherent : store.Coherent) {number : Nat}
    (hopen : store.peek? topic = some number) (hcurrent : store.current topic = .ok stored)
    {log : TopicLog} (htopic : log.topic = stored.log.topic) :
    store.Updates topic { stored with log } (store.setLog number log) := by
  obtain ⟨hname, hdir⟩ := hcoherent.topic_of_current hcurrent
  rw [hdir]
  exact hcoherent.setLog hopen (htopic.trans hname)

/-- Work on the cursor of a reader is work on the log of its topic. -/
theorem Coherent.onCursor_spec (hcoherent : store.Coherent) {α : Type}
    (hopen : store.peek? topic = some handle.log) (hcurrent : store.current topic = .ok stored)
    (hfound : stored.log.cursorOf? handle.reader = some cursor)
    (work : String → Directory → Cursor → Except Fault α × Cursor) :
    ∃ after, store.onCursor handle work = ((work topic stored.dir cursor).1, after) ∧
      after.volume = store.volume ∧
      store.Updates topic
        { stored with
          log := stored.log.setCursor handle.reader (work topic stored.dir cursor).2 } after := by
  obtain ⟨hname, hdir⟩ := hcoherent.topic_of_current hcurrent
  obtain ⟨reader, hreader, rfl⟩ := hcoherent.reader?_eq hopen hcurrent hfound
  let moved := (work topic stored.dir reader.cursor).2
  refine ⟨store.setLog handle.log (stored.log.setCursor handle.reader moved), ?_, rfl,
    hcoherent.updates_setLog hopen hcurrent rfl⟩
  simp only [onCursor, hreader, hname, ← hdir, moved]

theorem isAlive_of_peek? {number : Nat} (hopen : store.peek? topic = some number) :
    store.isAlive number = true := by
  obtain ⟨front, back, hcatalog, -⟩ := List.lookup_eq_some_iff.mp hopen
  simp [isAlive, hcatalog]

/-- A reader of an open log is moved by placing a new cursor for it. -/
theorem Coherent.seek_spec (hcoherent : store.Coherent)
    (hopen : store.peek? topic = some handle.log) (hcurrent : store.current topic = .ok stored)
    (hfound : stored.log.cursorOf? handle.reader = some cursor) (offset : Nat) :
    (∃ fault, Cursor.place stored.log.segments stored.log.maxOffset offset = .error fault ∧
        store.seek handle offset = (.error fault, store)) ∨
      ∃ moved after, Cursor.place stored.log.segments stored.log.maxOffset offset = .ok moved ∧
        store.seek handle offset = (.ok (), after) ∧
        store.Updates topic { stored with log := stored.log.setCursor handle.reader moved }
          after := by
  obtain ⟨reader, hreader, -⟩ := hcoherent.reader?_eq hopen hcurrent hfound
  have halive := isAlive_of_peek? hopen
  unfold seek
  simp only [hreader, halive, if_true]
  cases hplace : Cursor.place stored.log.segments stored.log.maxOffset offset with
  | error fault => exact Or.inl ⟨fault, rfl, rfl⟩
  | ok moved =>
    exact Or.inr ⟨moved, _, rfl, rfl, hcoherent.updates_setLog hopen hcurrent rfl⟩

/-- A new reader of an open log. -/
theorem Coherent.addReader_spec (hcoherent : store.Coherent) {number : Nat}
    (hopen : store.peek? topic = some number) (hcurrent : store.current topic = .ok stored)
    (hshort : topic.utf8ByteSize ≤ maxNameLength) (hsound : stored.dir.Sound) (name : String)
    (offset : Nat) :
    (∃ fault after, stored.log.addReader name offset = .error fault ∧
        store.addReader number name offset = (.error fault, after) ∧
        store.Updates topic stored after) ∨
      ∃ id log after, stored.log.addReader name offset = .ok (id, log) ∧
        store.addReader number name offset = (.ok ⟨number, id⟩, after) ∧
        store.Updates topic { stored with log } after := by
  obtain ⟨hname, hdir⟩ := hcoherent.topic_of_current hcurrent
  obtain ⟨log, -, -, hstored, hfound⟩ := hcoherent.current_of_peek? hopen
  obtain rfl := Except.ok.inj (hfound.symm.trans hcurrent)
  unfold addReader onLog
  simp only [hstored]
  cases hadd : log.addReader name offset with
  | error fault =>
    exact Or.inl ⟨fault, _, rfl, rfl, hcoherent.setStored hopen hname hshort hsound le_rfl⟩
  | ok added =>
    obtain ⟨id, log⟩ := added
    obtain ⟨cursor, -, hlog⟩ := TopicLog.addReader_eq_ok hadd
    obtain ⟨rfl, rfl⟩ := Prod.mk.inj hlog
    exact Or.inr ⟨_, _, _, rfl, rfl, hcoherent.setStored hopen hname hshort hsound le_rfl⟩

/-- A reader that is unregistered leaves nothing but its place among the others. -/
theorem Coherent.removeReader_spec (hcoherent : store.Coherent) {number : Nat}
    (hopen : store.peek? topic = some number) (hcurrent : store.current topic = .ok stored)
    (id : Nat) :
    ∃ log, (log = stored.log ∨ log = stored.log.removeReader id) ∧
      store.Updates topic { stored with log } (store.removeReader number ⟨number, id⟩).2 := by
  obtain ⟨log, hlog, -, -, hfound⟩ := hcoherent.current_of_peek? hopen
  obtain rfl := Except.ok.inj (hfound.symm.trans hcurrent)
  unfold removeReader
  simp only [hlog, true_and]
  by_cases hregistered : log.hasReader id = true
  · rw [if_pos hregistered]
    exact ⟨_, Or.inr rfl, hcoherent.updates_setLog hopen hcurrent rfl⟩
  · rw [if_neg hregistered]
    exact ⟨_, Or.inl rfl, hcoherent.updates_self hcurrent⟩

end ReplicatedLog.Store
