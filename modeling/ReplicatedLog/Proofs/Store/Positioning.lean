import ReplicatedLog.Proofs.Log.Roster
import ReplicatedLog.Proofs.Store.Listeners

namespace ReplicatedLog

namespace StoredLog.Consistent

variable {stored : StoredLog}

/-- No segment starts behind the end of the log. -/
theorem bounded (hconsistent : stored.Consistent) {segment : Segment}
    (hmem : segment ∈ stored.log.segments) : segment.offset ≤ stored.log.maxOffset := by
  obtain ⟨front, last, hsegments⟩ :=
    (List.eq_nil_or_concat' stored.log.segments).resolve_left (List.ne_nil_of_mem hmem)
  obtain ⟨size, -, hend⟩ := hconsistent.ended last (by simp [hsegments])
  have hascending := hconsistent.ascending
  rw [hsegments, List.pairwise_append] at hascending
  rw [hsegments, List.mem_append, List.mem_singleton] at hmem
  obtain hfront | rfl := hmem
  · have hlt := hascending.2.2 segment hfront last (List.mem_singleton_self _)
    omega
  · omega

theorem firstOffset_le_maxOffset (hconsistent : stored.Consistent) :
    stored.log.firstOffset ≤ stored.log.maxOffset := by
  cases hsegments : stored.log.segments with
  | nil => exact (TopicLog.firstOffset_of_nil hsegments).le
  | cons first rest =>
    rw [TopicLog.firstOffset_of_cons hsegments]
    exact hconsistent.bounded (hsegments ▸ List.mem_cons_self)

end StoredLog.Consistent

/-- A cursor at an offset of a log: it knows the end of the log, and all segments from the last one
    on that starts at or before the offset. -/
structure Cursor.StandsAt (cursor : Cursor) (log : TopicLog) (offset : Nat) : Prop where
  offset_eq : cursor.offset = offset
  maxOffset_eq : cursor.maxOffset = log.maxOffset
  outside : log.segments = [] → cursor.segments = []
  inside : log.segments ≠ [] → ∃ passed current rest,
    log.segments = passed ++ current :: rest ∧ cursor.segments = current :: rest ∧
      current.offset ≤ offset ∧ (∀ later ∈ rest, offset < later.offset) ∧
      cursor.position = offset - current.offset ∧
      cursor.available = Cursor.segmentEnd (current :: rest) log.maxOffset - offset

namespace TopicLog

variable {log : TopicLog} {offset : Nat} {cursor : Cursor}

/-- How it ends to put a reader of a log at an offset. It succeeds from the first offset of the log
    up to its end; then `done` holds of the result and of the cursor placed there. Where it fails,
    the error says on which side of the log the offset lies, and `undone` holds. -/
structure Positions {α : Type} (log : TopicLog) (offset : Nat) (outcome : Except Fault α)
    (done : α → Cursor → Prop) (undone : Prop) : Prop where
  accepted_iff : (∃ result, outcome = .ok result) ↔
    log.firstOffset ≤ offset ∧ offset ≤ log.maxOffset
  beyond : log.maxOffset < offset → outcome = .error (.invalidOffset offset log.maxOffset)
  deleted : offset < log.firstOffset → outcome = .error (.offsetDeleted offset log.firstOffset)
  placed : ∀ result, outcome = .ok result → ∃ cursor, cursor.StandsAt log offset ∧
    done result cursor
  refused : ∀ fault, outcome = .error fault → undone

theorem place_of_beyond (hbeyond : log.maxOffset < offset) :
    Cursor.place log.segments log.maxOffset offset =
      .error (.invalidOffset offset log.maxOffset) := by
  unfold Cursor.place
  rw [if_pos hbeyond]

/-- Before an offset in front of the log nothing is passed over. -/
theorem segmentsFrom_of_lt {first : Segment} {rest : List Segment}
    (hascending : (first :: rest).Pairwise fun segment next => segment.offset < next.offset)
    (hlt : offset < first.offset) : Cursor.segmentsFrom offset (first :: rest) = first :: rest := by
  cases rest with
  | nil => rfl
  | cons next others =>
    have hnext := (List.pairwise_cons.mp hascending).1 next List.mem_cons_self
    rw [Cursor.segmentsFrom, if_neg (by omega)]

theorem place_of_deleted
    (hascending : log.segments.Pairwise fun segment next => segment.offset < next.offset)
    (hend : offset ≤ log.maxOffset) (hdeleted : offset < log.firstOffset) :
    Cursor.place log.segments log.maxOffset offset =
      .error (.offsetDeleted offset log.firstOffset) := by
  have hsame : Cursor.segmentsFrom offset log.segments = log.segments := by
    cases hsegments : log.segments with
    | nil => rfl
    | cons first rest =>
      rw [firstOffset_of_cons hsegments] at hdeleted
      exact segmentsFrom_of_lt (hsegments ▸ hascending) hdeleted
  unfold Cursor.place
  rw [if_neg (by omega)]
  simp only [hsame]
  exact if_pos hdeleted

/-- The segments from an offset of the log on, with the one that the offset lies in. -/
theorem exists_segmentsFrom
    (hascending : log.segments.Pairwise fun segment next => segment.offset < next.offset)
    (hfirst : log.firstOffset ≤ offset) (hsome : log.segments ≠ []) :
    ∃ passed current rest, log.segments = passed ++ current :: rest ∧
      Cursor.segmentsFrom offset log.segments = current :: rest ∧ current.offset ≤ offset ∧
      ∀ later ∈ rest, offset < later.offset := by
  obtain ⟨passed, hsplit, hfound, hnext, hstart⟩ := Cursor.segmentsFrom_spec offset log.segments
  obtain ⟨current, rest, hfrom⟩ := List.exists_cons_of_ne_nil (hfound hsome)
  rw [hfrom] at hsplit
  refine ⟨passed, current, rest, hsplit, hfrom, ?_, ?_⟩
  · cases passed with
    | nil => exact firstOffset_of_cons hsplit ▸ hfirst
    | cons first others => exact hstart (List.cons_ne_nil first others) current rest hfrom
  · intro later hlater
    cases rest with
    | nil => cases hlater
    | cons next others =>
      have hlt := hnext current next others hfrom
      have hrest := (List.pairwise_append.mp (hsplit ▸ hascending)).2.1.of_cons
      obtain rfl | hothers := List.mem_cons.mp hlater
      · exact hlt
      · exact hlt.trans ((List.pairwise_cons.mp hrest).1 later hothers)

theorem place_of_within
    (hascending : log.segments.Pairwise fun segment next => segment.offset < next.offset)
    (hfirst : log.firstOffset ≤ offset) (hend : offset ≤ log.maxOffset) :
    ∃ cursor, Cursor.place log.segments log.maxOffset offset = .ok cursor ∧
      cursor.StandsAt log offset := by
  obtain ⟨cursor, hplace⟩ := Cursor.exists_place hfirst hend
  refine ⟨cursor, hplace, ?_⟩
  unfold Cursor.place at hplace
  rw [if_neg (by omega)] at hplace
  by_cases hsegments : log.segments = []
  · simp only [hsegments, Cursor.segmentsFrom] at hplace
    split at hplace
    · cases hplace
    · obtain rfl := Except.ok.inj hplace
      exact ⟨rfl, rfl, fun _ => rfl, fun hsome => absurd hsegments hsome⟩
  · obtain ⟨passed, current, rest, hsplit, hfrom, hle, hlater⟩ :=
      exists_segmentsFrom hascending hfirst hsegments
    simp only [hfrom, List.head?_cons, Option.map_some, Option.getD_some] at hplace
    rw [if_neg (by omega)] at hplace
    obtain rfl := Except.ok.inj hplace
    exact ⟨rfl, rfl, fun hnil => absurd hnil hsegments,
      fun _ => ⟨passed, current, rest, hsplit, rfl, hle, hlater, rfl, rfl⟩⟩

/-- Whatever fails exactly where no cursor can be placed, with the same error, puts a reader at an
    offset. -/
theorem Positions.of_place {α : Type} {outcome : Except Fault α} {done : α → Cursor → Prop}
    {undone : Prop}
    (hascending : log.segments.Pairwise fun segment next => segment.offset < next.offset)
    (hbounded : log.firstOffset ≤ log.maxOffset)
    (hplaced : ∀ cursor, Cursor.place log.segments log.maxOffset offset = .ok cursor →
      ∃ result, outcome = .ok result ∧ done result cursor)
    (hrefused : ∀ fault, Cursor.place log.segments log.maxOffset offset = .error fault →
      outcome = .error fault ∧ undone) :
    log.Positions offset outcome done undone := by
  by_cases hbeyond : log.maxOffset < offset
  · obtain ⟨houtcome, hundone⟩ := hrefused _ (place_of_beyond hbeyond)
    subst houtcome
    refine ⟨⟨?_, by omega⟩, fun _ => rfl, by omega, ?_, fun _ _ => hundone⟩
    · rintro ⟨result, ⟨⟩⟩
    · rintro result ⟨⟩
  by_cases hdeleted : offset < log.firstOffset
  · obtain ⟨houtcome, hundone⟩ :=
      hrefused _ (place_of_deleted hascending (not_lt.mp hbeyond) hdeleted)
    subst houtcome
    refine ⟨⟨?_, by omega⟩, by omega, fun _ => rfl, ?_, fun _ _ => hundone⟩
    · rintro ⟨result, ⟨⟩⟩
    · rintro result ⟨⟩
  · have hwithin : log.firstOffset ≤ offset ∧ offset ≤ log.maxOffset := by omega
    obtain ⟨cursor, hplace, hstands⟩ := place_of_within hascending hwithin.1 hwithin.2
    obtain ⟨result, rfl, hdone⟩ := hplaced cursor hplace
    refine ⟨⟨fun _ => hwithin, fun _ => ⟨result, rfl⟩⟩, by omega, by omega, ?_, ?_⟩
    · rintro other ⟨⟩
      exact ⟨cursor, hstands, hdone⟩
    · rintro fault ⟨⟩

end TopicLog

namespace Store

variable {store : Store} {number : Nat} {stored : StoredLog} {handle : Handle} {reader : Reader}

theorem exists_log_of_stored? (hstored : store.stored? number = some stored) :
    store.logs[number]? = some stored.log := by
  obtain ⟨log, hlog, rfl⟩ := Option.map_eq_some_iff.mp hstored
  exact hlog

theorem reader?_setLog (hreader : store.reader? handle = some (stored.log, reader))
    (cursor : Cursor) :
    (store.setLog handle.log (stored.log.setCursor handle.reader cursor)).reader? handle =
      some (stored.log.setCursor handle.reader cursor, { reader with cursor }) := by
  obtain ⟨hlog, hfound⟩ := reader?_eq_some hreader
  simp only [reader?, logs_setLog_self hlog, TopicLog.reader?_setCursor hfound,
    Option.bind_eq_bind, Option.bind_some]

/-- A new reader, and a reader that is moved, can be put from the first offset of a consistent log
    up to its end. It then reads what the log has from there on. Otherwise nothing about readers
    changes. -/
theorem positions_readers (hstored : store.stored? number = some stored)
    (hconsistent : stored.Consistent) (offset : Nat) :
    (∀ name, stored.log.Positions offset (store.addReader number name offset).1
      (fun added cursor => added = ⟨number, stored.log.nextReader⟩ ∧
        (store.addReader number name offset).2.logs[number]? = some { stored.log with
          readers := stored.log.readers ++ [⟨stored.log.nextReader, name, cursor⟩]
          nextReader := stored.log.nextReader + 1 })
      ((store.addReader number name offset).2.logs = store.logs)) ∧
    ∀ handle reader, handle.log = number → store.reader? handle = some (stored.log, reader) →
      store.isAlive number = true →
      stored.log.Positions offset (store.seek handle offset).1
        (fun _ cursor => (store.seek handle offset).2.reader? handle =
          some (stored.log.setCursor handle.reader cursor, { reader with cursor }))
        ((store.seek handle offset).2 = store) := by
  have hascending := hconsistent.ascending
  have hbounded := hconsistent.firstOffset_le_maxOffset
  have hlog := exists_log_of_stored? hstored
  constructor
  · intro name
    refine .of_place hascending hbounded (fun cursor hplace => ?_) fun fault hplace => ?_
    · have hadded : store.addReader number name offset = (.ok ⟨number, stored.log.nextReader⟩,
          store.setStored number { stored with log := { stored.log with
            readers := stored.log.readers ++ [⟨stored.log.nextReader, name, cursor⟩]
            nextReader := stored.log.nextReader + 1 } }) := by
        simp [addReader, onLog, hstored, TopicLog.addReader, hplace, bind, Except.bind]
      rw [hadded]
      exact ⟨_, rfl, rfl, logs_setLog_self hlog⟩
    · have hfailed : store.addReader number name offset =
          (.error fault, store.setStored number stored) := by
        simp [addReader, onLog, hstored, TopicLog.addReader, hplace, bind, Except.bind]
      rw [hfailed]
      obtain ⟨hlt, hsame⟩ := List.getElem?_eq_some_iff.mp hlog
      refine ⟨rfl, ?_⟩
      rw [setStored, setLog, ← hsame, List.set_getElem_self]
  · rintro handle reader rfl hreader halive
    refine .of_place hascending hbounded (fun cursor hplace => ?_) fun fault hplace => ?_
    · have hmoved : store.seek handle offset = (.ok (),
          store.setLog handle.log (stored.log.setCursor handle.reader cursor)) := by
        simp [seek, hreader, halive, hplace]
      rw [hmoved]
      exact ⟨_, rfl, reader?_setLog hreader cursor⟩
    · have hfailed : store.seek handle offset = (.error fault, store) := by
        simp [seek, hreader, halive, hplace]
      rw [hfailed]
      exact ⟨rfl, rfl⟩

/-- Around a log that starts at 100 and ends with an empty segment at 102. -/
theorem positions_readers_of_resumed :
    let opened : StoredLog := ⟨{ topic := "t" }, {}⟩
    let stored := (((opened.perform ⟨0, 0⟩ (.resumeAt 100)).perform ⟨0, 0⟩
      (.append [1, 2] 1)).perform ⟨0, 0⟩ .roll).perform ⟨0, 0⟩ (.addReader "first" 101)
    let store : Store :=
      { volume := ({} : Volume).setDirectory "t" stored.dir, logs := [stored.log]
        catalog := [("t", 0)] }
    store.stored? 0 = some stored ∧ stored.Consistent ∧
      stored.log.segments.map (·.offset) = [100, 102] ∧
      (store.addReader 0 "second" 99).1 = .error (.offsetDeleted 99 100) ∧
      (store.seek ⟨0, 0⟩ 103).1 = .error (.invalidOffset 103 102) ∧
      ∃ moved, (store.seek ⟨0, 0⟩ 102).1 = .ok moved := by
  intro opened stored store
  have hdir : opened.dir.Sound :=
    ⟨Or.inl rfl, List.Pairwise.nil, fun _ _ _ => List.not_mem_nil, List.Pairwise.nil,
      fun _ hentry => absurd hentry List.not_mem_nil⟩
  have hcontiguous : opened.Contiguous := ⟨List.Pairwise.nil, List.IsChain.nil⟩
  have hreaches : StoredLog.Reaches opened stored :=
    .step (.step (.step (.step .refl ⟨0, 0⟩ (.resumeAt 100) (by decide)
      (by unfold StoredLog.Fits; decide)) ⟨0, 0⟩ (.append [1, 2] 1) (by decide)
      (by unfold StoredLog.Fits; decide +kernel)) ⟨0, 0⟩ .roll (by decide) trivial) ⟨0, 0⟩
      (.addReader "first" 101) (by decide) trivial
  have hopen : StoredLog.ofDirectory "t" opened.dir = .ok opened := rfl
  have hconsistent : stored.Consistent :=
    (StoredLog.Reaches.consistent_of_open hdir hopen hcontiguous (StoredLog.bounded_of_nil rfl) .refl
      hreaches).1
  have hstored : store.stored? 0 = some stored := by decide +kernel
  have hfirst : stored.log.firstOffset = 100 := by decide +kernel
  have hend : stored.log.maxOffset = 102 := by decide +kernel
  obtain ⟨reader, hreader⟩ : ∃ reader, store.reader? ⟨0, 0⟩ = some (stored.log, reader) :=
    ⟨⟨0, "first", ⟨stored.log.segments, 101, 1, 102, 102⟩⟩, by decide +kernel⟩
  have hadds := (positions_readers hstored hconsistent 99).1 "second"
  have hbeyond := (positions_readers hstored hconsistent 103).2 ⟨0, 0⟩ reader rfl hreader rfl
  have hwithin := (positions_readers hstored hconsistent 102).2 ⟨0, 0⟩ reader rfl hreader rfl
  refine ⟨hstored, hconsistent, by decide +kernel, ?_, ?_, ?_⟩
  · rw [← hfirst]
    exact hadds.deleted (by omega)
  · rw [← hend]
    exact hbeyond.beyond (by omega)
  · exact hwithin.accepted_iff.mpr (by omega)

end Store

end ReplicatedLog
