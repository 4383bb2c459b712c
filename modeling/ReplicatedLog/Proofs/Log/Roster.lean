import ReplicatedLog.Proofs.Log.Readers

namespace ReplicatedLog

/-- The readers of a log, registered or not, by their identities and offsets. -/
structure Roster where
  topic : String
  registered : List (Nat × Nat)
  former : List (Nat × Nat)
  nextReader : Nat
  deriving DecidableEq

/-- What a roster has of a reader. -/
def Reader.post (reader : Reader) : Nat × Nat :=
  (reader.id, reader.cursor.offset)

namespace TopicLog

variable {log after : TopicLog} {id : Nat} {reader : Reader} {cursor : Cursor}

def roster (log : TopicLog) : Roster where
  topic := log.topic
  registered := log.readers.map Reader.post
  former := log.former.map Reader.post
  nextReader := log.nextReader

/-- Where a reader stands, registered or not. -/
def offset? (log : TopicLog) (id : Nat) : Option Nat :=
  (log.reader? id).map (·.cursor.offset)

theorem offset?_of_roster_eq (hroster : after.roster = log.roster) (id : Nat) :
    after.offset? id = log.offset? id := by
  have hposts : (after.readers ++ after.former).map Reader.post =
      (log.readers ++ log.former).map Reader.post := by
    simp only [List.map_append]
    exact congrArg₂ (· ++ ·) (congrArg Roster.registered hroster) (congrArg Roster.former hroster)
  have hoffset : ∀ log : TopicLog, log.offset? id =
      (((log.readers ++ log.former).map Reader.post).find? fun post => post.1 = id).map (·.2) := by
    intro log
    rw [List.find?_map, Option.map_map]
    rfl
  rw [hoffset, hoffset, hposts]

theorem roster_mapCursors (log : TopicLog) (change : Cursor → Cursor)
    (hchange : ∀ cursor, (change cursor).offset = cursor.offset) :
    (log.mapCursors change).roster = log.roster := by
  simp [roster, mapCursors, Reader.post, Function.comp_def, hchange]

@[simp] theorem roster_addSegment (log : TopicLog) (segment : Segment) :
    (log.addSegment segment).roster = log.roster :=
  log.roster_mapCursors (Cursor.addSegment segment) fun _ => rfl

@[simp] theorem roster_addBytes (log : TopicLog) (length : Nat) :
    (log.addBytes length).roster = log.roster :=
  log.roster_mapCursors (Cursor.addBytes length) fun _ => rfl

/-- The identities of all readers, registered or not. -/
def ids (log : TopicLog) : List Nat :=
  (log.readers ++ log.former).map (·.id)

/-- No two readers share an identity, and the next one gets one that none had. -/
structure Identified (log : TopicLog) : Prop where
  distinct : log.ids.Nodup
  below : ∀ id ∈ log.ids, id < log.nextReader

namespace Identified

theorem of_perm (hidentified : log.Identified) (hperm : after.ids.Perm log.ids)
    (hnext : after.nextReader = log.nextReader) : after.Identified where
  distinct := hperm.symm.nodup hidentified.distinct
  below id hid := by
    rw [hnext]
    exact hidentified.below id (hperm.mem_iff.mp hid)

theorem of_roster_eq (hidentified : log.Identified) (hroster : after.roster = log.roster) :
    after.Identified := by
  have hids : ∀ log : TopicLog, log.ids =
      log.roster.registered.map Prod.fst ++ log.roster.former.map Prod.fst := by
    intro log
    simp [ids, roster, Reader.post, Function.comp_def]
  have hsame : after.ids = log.ids := by rw [hids, hids, hroster]
  exact hidentified.of_perm (.of_eq hsame) (congrArg Roster.nextReader hroster)

theorem mapCursors (hidentified : log.Identified) (change : Cursor → Cursor) :
    (log.mapCursors change).Identified := by
  refine hidentified.of_perm (.of_eq ?_) rfl
  simp [ids, TopicLog.mapCursors, Function.comp_def]

theorem setCursor (hidentified : log.Identified) (id : Nat) (cursor : Cursor) :
    (log.setCursor id cursor).Identified := by
  have hid : ∀ reader : Reader,
      (if reader.id = id then { reader with cursor } else reader).id = reader.id := by
    intro reader
    split <;> rfl
  refine hidentified.of_perm (.of_eq ?_) rfl
  simp [ids, TopicLog.setCursor, Function.comp_def, hid]

/-- A new reader gets a new identity. -/
theorem addReader (hidentified : log.Identified) {name : String} {offset : Nat}
    {added : Nat × TopicLog} (hadd : log.addReader name offset = .ok added) :
    added.2.Identified := by
  obtain ⟨cursor, -, rfl⟩ := addReader_eq_ok hadd
  have hperm : ids { log with
      readers := log.readers ++ [⟨log.nextReader, name, cursor⟩]
      nextReader := log.nextReader + 1 } |>.Perm (log.nextReader :: log.ids) := by
    simp only [ids, List.append_assoc, List.singleton_append, List.map_append, List.map_cons]
    exact List.perm_middle
  refine ⟨hperm.symm.nodup (List.nodup_cons.mpr ⟨fun hmem => ?_, hidentified.distinct⟩), ?_⟩
  · exact Nat.lt_irrefl _ (hidentified.below _ hmem)
  · intro id hid
    obtain rfl | hold := List.mem_cons.mp (hperm.mem_iff.mp hid)
    · exact Nat.lt_succ_self _
    · exact Nat.lt_succ_of_lt (hidentified.below id hold)

/-- A reader that is unregistered keeps its identity. -/
theorem removeReader (hidentified : log.Identified) (id : Nat) :
    (log.removeReader id).Identified := by
  have hsplit : ((log.readers.filter fun reader => reader.id ≠ id) ++
      log.readers.filter fun reader => reader.id = id).Perm log.readers := by
    simpa using List.filter_append_perm (fun reader : Reader => decide (reader.id ≠ id)) log.readers
  refine hidentified.of_perm (List.Perm.map _ ?_) rfl
  have hswap : (log.former ++ log.readers.filter fun reader => reader.id = id).Perm
      ((log.readers.filter fun reader => reader.id = id) ++ log.former) := List.perm_append_comm
  have hall := (hswap.append_left (log.readers.filter fun reader => reader.id ≠ id)).trans
    (.of_eq (List.append_assoc ..).symm)
  exact hall.trans (hsplit.append_right log.former)

/-- Only one reader has an identity. -/
theorem eq_of_reader? (hidentified : log.Identified) (hreader : log.reader? id = some reader)
    {other : Reader} (hmem : other ∈ log.readers ++ log.former) (hid : other.id = id) :
    other = reader := by
  have hfound : reader.id = id := by simpa using List.find?_some hreader
  exact List.inj_on_of_nodup_map hidentified.distinct hmem (List.mem_of_find?_eq_some hreader)
    (hid.trans hfound.symm)

/-- To give a reader the cursor that it has changes nothing. -/
theorem setCursor_self (hidentified : log.Identified) (hreader : log.reader? id = some reader) :
    log.setCursor id reader.cursor = log := by
  have hsame : ∀ readers : List Reader, readers ⊆ log.readers ++ log.former →
      (readers.map fun other =>
        if other.id = id then { other with cursor := reader.cursor } else other) = readers := by
    intro readers hreaders
    refine (List.map_congr_left fun other hmem => ?_).trans (List.map_id readers)
    split
    next hid =>
      obtain rfl := hidentified.eq_of_reader? hreader (hreaders hmem) hid
      rfl
    next => rfl
  simp only [TopicLog.setCursor, hsame _ (List.subset_append_left _ _),
    hsame _ (List.subset_append_right _ _)]

end Identified

/-- A reader, registered or not, has the cursor that it was given. -/
theorem reader?_setCursor (hreader : log.reader? id = some reader) :
    (log.setCursor id cursor).reader? id = some { reader with cursor } := by
  have hid : reader.id = id := by simpa using List.find?_some hreader
  have hsame : (fun reader : Reader => decide (reader.id = id)) ∘
      (fun reader : Reader => if reader.id = id then { reader with cursor } else reader) =
      fun reader => decide (reader.id = id) := by
    funext reader
    by_cases hreader : reader.id = id <;> simp [hreader]
  unfold reader? at hreader
  simp only [reader?, setCursor, ← List.map_append, List.find?_map, hsame, hreader,
    Option.map_some, hid, if_true]

end TopicLog

namespace StoredLog

variable {stored : StoredLog}

theorem roster_roll (stored : StoredLog) (now : Instant) :
    (stored.roll now).2.log.roster = stored.log.roster := by
  unfold roll
  split
  · rfl
  · split
    · rfl
    · rfl
    · split
      · rfl
      · exact TopicLog.roster_addSegment _ _

theorem roster_activeSegment (stored : StoredLog) (rollSize : Nat) (now : Instant) :
    (stored.activeSegment rollSize now).2.log.roster = stored.log.roster := by
  unfold activeSegment
  split
  · exact roster_roll stored now
  · split
    · rfl
    · split
      · rfl
      · exact roster_roll stored now

theorem roster_openSegment {segment : Segment} {now : Instant} {opened : Nat × StoredLog}
    (hopen : stored.openSegment segment now = .ok opened) :
    opened.2.log.roster = stored.log.roster := by
  unfold openSegment at hopen
  split at hopen
  · obtain rfl := Except.ok.inj hopen
    rfl
  · split at hopen
    · cases hopen
    · obtain rfl := Except.ok.inj hopen
      rfl

theorem roster_append (stored : StoredLog) (data : Bytes) (rollSize : Nat) (now : Instant) :
    (stored.append data rollSize now).2.log.roster = stored.log.roster := by
  have hactive := stored.roster_activeSegment rollSize now
  unfold append
  cases hsegment : stored.activeSegment rollSize now with
  | mk outcome active =>
    rw [hsegment] at hactive
    cases outcome with
    | error fault => exact hactive
    | ok segment =>
      dsimp only
      cases hopen : active.openSegment segment now with
      | error fault => exact hactive
      | ok opened =>
        exact (TopicLog.roster_addBytes _ _).trans ((roster_openSegment hopen).trans hactive)

theorem roster_appendAt (stored : StoredLog) (offset : Nat) (data : Bytes) (rollSize : Nat)
    (now : Instant) : (stored.appendAt offset data rollSize now).2.log.roster = stored.log.roster := by
  unfold appendAt
  split
  · rfl
  · split
    · rfl
    · exact roster_append stored data rollSize now

theorem roster_removeDirectory (stored : StoredLog) :
    stored.removeDirectory.2.log.roster = stored.log.roster := by
  unfold removeDirectory
  split <;> rfl

theorem roster_cleanup (stored : StoredLog) (retain : Nat) (now : Instant) :
    (stored.cleanup retain now).2.log.roster = stored.log.roster := by
  unfold cleanup
  split
  · exact roster_removeDirectory stored
  · rfl

theorem roster_dropLast (stored : StoredLog) (last : Segment) (retain : Nat) (now : Instant) :
    (stored.dropLast last retain now).2.log.roster = stored.log.roster := by
  unfold dropLast
  split
  · rfl
  · split
    · rfl
    · split
      · rfl
      · exact roster_removeDirectory _

theorem roster_cleanupAll (stored : StoredLog) (retain external : Nat) (now : Instant) :
    (stored.cleanupAll retain external now).2.log.roster = stored.log.roster := by
  have hsealed (gate : Nat) :
      (stored.cleanupSealed retain gate now).2.log.roster = stored.log.roster := rfl
  unfold cleanupAll
  split
  · exact roster_removeDirectory stored
  · specialize hsealed (min stored.log.gate external)
    dsimp only
    cases hclean : stored.cleanupSealed retain (min stored.log.gate external) now with
    | mk outcome cleaned =>
      rw [hclean] at hsealed
      cases outcome with
      | error fault => exact hsealed
      | ok =>
        dsimp only
        split
        · split
          · exact hsealed
          · exact (roster_dropLast _ _ _ _).trans hsealed
        · exact hsealed

/-- After a restart nobody reads the log. -/
theorem identified_ofDirectory {topic : String} {dir : Directory} {opened : StoredLog}
    (hopen : ofDirectory topic dir = .ok opened) : opened.log.Identified := by
  unfold ofDirectory reload at hopen
  cases hscan : scan dir with
  | error fault => simp [hscan, bind, Except.bind] at hopen
  | ok found =>
    simp only [hscan, bind, Except.bind, Except.ok.injEq] at hopen
    subst hopen
    exact ⟨List.nodup_nil, fun _ hid => absurd hid List.not_mem_nil⟩

theorem identified_onReader (hidentified : stored.log.Identified) {α : Type} (id : Nat)
    (work : String → Directory → Cursor → Except Fault α × Cursor) :
    (stored.onReader id work).2.log.Identified := by
  unfold onReader
  split
  · exact hidentified
  · exact hidentified.setCursor id _

/-- Whatever is done with a log, its readers can be told apart. -/
theorem identified_perform (hidentified : stored.log.Identified) (now : Instant)
    (action : LogAction) : (stored.perform now action).log.Identified := by
  cases action with
  | append data rollSize => exact hidentified.of_roster_eq (roster_append stored data rollSize now)
  | appendAt offset data rollSize =>
    exact hidentified.of_roster_eq (roster_appendAt stored offset data rollSize now)
  | roll => exact hidentified.of_roster_eq (roster_roll stored now)
  | resumeAt offset =>
    simp only [perform, resumeAt]
    split
    · exact hidentified
    · split
      · exact hidentified
      · split
        · exact hidentified
        next segment _ _ =>
          have hmoved := hidentified.mapCursors fun _ =>
            { segments := [segment], offset, boundary := offset, maxOffset := offset }
          exact hmoved.of_roster_eq rfl
  | cleanup retain => exact hidentified.of_roster_eq (roster_cleanup stored retain now)
  | cleanupAll retain external =>
    exact hidentified.of_roster_eq (roster_cleanupAll stored retain external now)
  | addReader name offset =>
    simp only [perform]
    split
    · exact hidentified
    next hadd => exact hidentified.addReader hadd
  | removeReader id => exact hidentified.removeReader id
  | hasMore id => exact identified_onReader hidentified id _
  | nextRegion id limit => exact identified_onReader hidentified id _
  | consume id length => exact identified_onReader hidentified id _
  | seek id offset => exact identified_onReader hidentified id _

theorem Reaches.identified {start : StoredLog} (hreaches : Reaches start stored)
    (hstart : start.log.Identified) : stored.log.Identified := by
  induction hreaches with
  | refl => exact hstart
  | step _ now action _ _ ih => exact identified_perform ih now action

end StoredLog

end ReplicatedLog
