import ReplicatedLog.Proofs.Log.Consumption
import ReplicatedLog.Proofs.Log.Contents

namespace ReplicatedLog

/-- Work for a reader that is shown the entries from its place on, and stays there. -/
def Cursor.readEntries {σ : Type} (visit : σ → Bytes → Except Fault σ) (once : Bool) (state : σ)
    (dir : Directory) (cursor : Cursor) : Except Fault (Except Fault Nat × σ) × Cursor :=
  (.ok (cursor.visitEntries dir visit once state), cursor)

namespace Checksum

/-- The sum of the entries in the bytes of a log that starts at `first`. The bytes have to be blocks
    up to their end. -/
def ofBytes (topic : String) (first : Nat) (bytes : Bytes) : Except Fault Checksum :=
  match Block.visitAll Block.collect false none bytes [] with
  | (.error fault, _) => .error fault
  | (.ok count, entries) =>
    if count = bytes.length then
      .ok { digest := Sha512.digest entries.reverse.flatten, entries := entries.length, bytes := count }
    else .error (.corruption (.undecodedTail topic (first + count) (first + bytes.length)))

/-- Two outcomes of summing up that differ at most in the topic that a fault names. -/
inductive Alike : Except Fault Checksum → Except Fault Checksum → Prop
  | same (outcome : Except Fault Checksum) : Alike outcome outcome
  | tail (left right : String) (decoded total : Nat) :
      Alike (.error (.corruption (.undecodedTail left decoded total)))
        (.error (.corruption (.undecodedTail right decoded total)))

theorem ofBytes_alike (left right : String) (first : Nat) (bytes : Bytes) :
    Alike (ofBytes left first bytes) (ofBytes right first bytes) := by
  unfold ofBytes
  split
  · exact .same _
  · split
    · exact .same _
    · exact .tail _ _ _ _

/-- The sum of the entries of blocks that are `length` bytes long. -/
def ofBlocks (blocks : List Block) (length : Nat) : Checksum where
  digest := Sha512.digest (blocks.flatMap fun block => block.entries.1).flatten
  entries := (blocks.flatMap fun block => block.entries.1).length
  bytes := length

end Checksum

theorem Block.length_le_of_visitAll_collect {missing : Option IoFault} {bytes : Bytes} {count : Nat}
    {entries list : List Bytes}
    (hvisit : Block.visitAll Block.collect false missing bytes entries = (.ok count, list)) :
    count ≤ bytes.length := by
  obtain ⟨-, blocks, rest, hread, -, rfl, -⟩ := Block.exists_of_visitAll_collect hvisit
  exact Block.sum_frameLength_le hread

/-- A reader that comes and goes leaves the others as they are. -/
theorem TopicLog.readers_removeReader_added {log : TopicLog} (hnumbered : log.Numbered) (name : String)
    (cursor moved : Cursor) :
    ((setCursor { log with
      readers := log.readers ++ [⟨log.nextReader, name, cursor⟩]
      nextReader := log.nextReader + 1 } log.nextReader moved).removeReader log.nextReader).readers =
        log.readers := by
  have hothers : ∀ reader ∈ log.readers, reader.id ≠ log.nextReader :=
    fun reader hmem => (hnumbered reader hmem).ne
  have hkept : log.readers.map (fun reader =>
      if reader.id = log.nextReader then { reader with cursor := moved } else reader) =
        log.readers := by
    refine (List.map_congr_left fun reader hmem => ?_).trans (List.map_id _)
    rw [if_neg (hothers reader hmem)]
    rfl
  have hall : log.readers.filter (fun reader => reader.id ≠ log.nextReader) = log.readers :=
    List.filter_eq_self.mpr fun reader hmem => by simpa using hothers reader hmem
  simp only [removeReader, setCursor, List.map_append, List.filter_append, hkept, hall]
  simp

namespace Cursor

variable {cursor : Cursor} {dir : Directory} {topic : String} {list : List Bytes}

theorem checksum_of_error {fault : Fault}
    (hvisit : cursor.visitEntries dir Block.collect false [] = (.error fault, list)) :
    cursor.checksum topic dir = (.error fault, cursor) := by
  unfold checksum
  change (match cursor.visitEntries dir Block.collect false [] with
    | (.error fault, _) => (.error fault, cursor)
    | (.ok bytes, entries) => _ : Except Fault Checksum × Cursor) = _
  rw [hvisit]

/-- Entries that were collected make up a checksum if the cursor can move over them to the end. -/
theorem checksum_of_ok {count : Nat}
    (hvisit : cursor.visitEntries dir Block.collect false [] = (.ok count, list)) :
    cursor.checksum topic dir =
      match cursor.consume topic dir count with
      | (.error fault, moved) => (.error fault, moved)
      | (.ok (), moved) =>
        (if moved.offset = moved.maxOffset then
          .ok { digest := Sha512.digest list.reverse.flatten, entries := list.length, bytes := count }
        else .error (.corruption (.undecodedTail topic moved.offset moved.maxOffset)), moved) := by
  unfold checksum
  change (match cursor.visitEntries dir Block.collect false [] with
    | (.error fault, _) => (.error fault, cursor)
    | (.ok bytes, entries) => _ : Except Fault Checksum × Cursor) = _
  rw [hvisit]
  rcases hconsume : cursor.consume topic dir count with ⟨fault | _, moved⟩
  · simp only [hconsume]
  · simp only [hconsume]
    by_cases hend : moved.offset = moved.maxOffset
    · rw [if_pos hend, if_neg (not_not.mpr hend)]
    · rw [if_neg hend, if_pos hend]

end Cursor

namespace StoredLog

variable {stored left right : StoredLog} {parts : List Part} {history bytes : Bytes} {cursor : Cursor}

/-- A log that was opened on a contiguous directory, whatever was done with it since. -/
def InUse (stored : StoredLog) : Prop :=
  ∃ topic dir opened, dir.Sound ∧ ofDirectory topic dir = .ok opened ∧ opened.Contiguous ∧
    opened.Bounded ∧ Reaches opened stored

/-- Whoever is registered at `offset` is shown the blocks of `bytes`, and stays there. -/
def Yields (stored : StoredLog) (offset : Nat) (bytes : Bytes) : Prop :=
  ∀ name, ∃ id log cursor, stored.log.addReader name offset = .ok (id, log) ∧
    log.cursorOf? id = some cursor ∧ cursor.offset = offset ∧
    ∀ {σ : Type} (visit : σ → Bytes → Except Fault σ) (once : Bool) (state : σ),
      ∃ after, onReader { stored with log } id (fun _ => Cursor.readEntries visit once state) =
          (.ok (Block.visitAll visit once none bytes state), after) ∧
        after.log.cursorOf? id = some cursor

theorem numbered_of_ofDirectory {topic : String} {dir : Directory}
    (hopen : ofDirectory topic dir = .ok stored) : stored.log.Numbered := by
  unfold TopicLog.Numbered
  rw [readers_of_ofDirectory hopen]
  exact nofun

theorem InUse.perform (hstored : stored.InUse) {now : Instant} {action : LogAction}
    (hnow : now.InCalendar) (hfits : stored.Fits action) : (stored.perform now action).InUse := by
  obtain ⟨topic, dir, opened, hdir, hopen, hcontiguous, hbounded, hreaches⟩ := hstored
  exact ⟨topic, dir, opened, hdir, hopen, hcontiguous, hbounded,
    .step hreaches now action hnow hfits⟩

theorem InUse.laid_and_numbered (hstored : stored.InUse) :
    (∃ parts, stored.Laid parts) ∧ stored.log.Numbered := by
  obtain ⟨topic, dir, opened, hdir, hopen, hcontiguous, hbounded, hreaches⟩ := hstored
  obtain ⟨parts, hparts⟩ := Laid.of_open hdir hopen hcontiguous hbounded
  obtain ⟨others, hlaid, -⟩ := hreaches.laid hparts
  exact ⟨⟨others, hlaid⟩, hreaches.numbered hparts (numbered_of_ofDirectory hopen)⟩

/-- What was added to a log before its first offset is gone, so it may have been anything. -/
theorem Laid.keeps (hlaid : stored.Laid parts) :
    stored.Keeps (List.replicate stored.log.firstOffset 0 ++ Part.contents parts) := by
  refine ⟨?_, parts, hlaid, ?_⟩
  · rw [List.length_append, List.length_replicate, hlaid.chained.stop_eq]
  · rw [List.drop_left' List.length_replicate]

/-- A checksum is taken by a reader that is gone afterwards. -/
theorem takeChecksum_spec (hnumbered : stored.log.Numbered)
    (hplace : Cursor.place stored.log.segments stored.log.maxOffset stored.log.firstOffset =
      .ok cursor) :
    ∃ after, stored.takeChecksum = ((cursor.checksum stored.log.topic stored.dir).1, after) ∧
      after.log.readers = stored.log.readers := by
  have hadd : stored.log.addReader "checksum" stored.log.firstOffset =
      .ok (stored.log.nextReader, { stored.log with
        readers := stored.log.readers ++ [⟨stored.log.nextReader, "checksum", cursor⟩]
        nextReader := stored.log.nextReader + 1 }) := by
    simp only [TopicLog.addReader, hplace, bind, Except.bind]
  have hfound := TopicLog.cursorOf?_nextReader hnumbered "checksum" cursor
  rw [takeChecksum, hadd]
  dsimp only
  rw [onReader_eq hfound]
  exact ⟨_, rfl, TopicLog.readers_removeReader_added hnumbered _ _ _⟩

/-- A cursor whose segments are all in the log sums up the bytes behind it. -/
theorem Keeps.cursor_checksum_eq (hkeeps : stored.Keeps history)
    (hplace : Cursor.place stored.log.segments stored.log.maxOffset stored.log.firstOffset =
      .ok cursor) (topic : String) :
    (cursor.checksum topic stored.dir).1 =
      Checksum.ofBytes topic stored.log.firstOffset (history.drop stored.log.firstOffset) := by
  obtain ⟨hdiscerns, hoffset⟩ := Cursor.Discerns.of_place hplace
  have hremaining := Cursor.remaining_eq hkeeps hdiscerns.follows (Cursor.segments_of_place hplace)
  rw [hoffset] at hremaining
  have hfirst := hkeeps.firstOffset_le
  obtain ⟨hlength, parts, hlaid, -⟩ := hkeeps
  have hvisit : cursor.visitEntries stored.dir Block.collect false [] =
      Block.visitAll Block.collect false none (history.drop stored.log.firstOffset) [] := by
    rw [Cursor.visitEntries, hremaining]
  unfold Checksum.ofBytes
  rcases hblocks : Block.visitAll Block.collect false none
    (history.drop stored.log.firstOffset) [] with ⟨fault | count, entries⟩
  · rw [Cursor.checksum_of_error (hvisit.trans hblocks)]
  · have hcount := Block.length_le_of_visitAll_collect hblocks
    rw [List.length_drop] at hcount ⊢
    have hinside : cursor.offset + count ≤ stored.log.maxOffset := by omega
    obtain ⟨moved, hconsume, hmoved, hend, -⟩ := hdiscerns.consume hlaid hinside topic
    have hmax := hmoved.follows.maxOffset_eq
    rw [Cursor.checksum_of_ok (hvisit.trans hblocks), hconsume]
    dsimp only
    by_cases hall : count = history.length - stored.log.firstOffset
    · rw [if_pos (by omega), if_pos hall]
    · have hstop : moved.offset = stored.log.firstOffset + count := by omega
      have htotal : moved.maxOffset =
          stored.log.firstOffset + (history.length - stored.log.firstOffset) := by omega
      rw [if_neg (by omega), if_neg hall, hstop, htotal]

/-- The checksum of a log is that of its bytes. -/
theorem Keeps.takeChecksum_spec (hkeeps : stored.Keeps history) (hnumbered : stored.log.Numbered) :
    stored.takeChecksum.1 = Checksum.ofBytes stored.log.topic stored.log.firstOffset
        (history.drop stored.log.firstOffset) ∧
      stored.takeChecksum.2.log.readers = stored.log.readers := by
  obtain ⟨cursor, hplace⟩ :=
    Cursor.exists_place le_rfl (hkeeps.1 ▸ hkeeps.firstOffset_le : _ ≤ stored.log.maxOffset)
  obtain ⟨after, htake, hreaders⟩ := StoredLog.takeChecksum_spec hnumbered hplace
  rw [htake]
  exact ⟨hkeeps.cursor_checksum_eq hplace _, hreaders⟩

/-- Where a log still is, it shows what was added to it from there on. -/
theorem Keeps.yields (hkeeps : stored.Keeps history) (hnumbered : stored.log.Numbered) {offset : Nat}
    (hfirst : stored.log.firstOffset ≤ offset) (hlast : offset ≤ stored.log.maxOffset) :
    stored.Yields offset (history.drop offset) := by
  intro name
  obtain ⟨cursor, hplace⟩ := Cursor.exists_place hfirst hlast
  obtain ⟨hfollows, hoffset⟩ := Cursor.follows_of_place hplace
  have hremaining := Cursor.remaining_eq hkeeps hfollows (Cursor.segments_of_place hplace)
  rw [hoffset] at hremaining
  let added : TopicLog := { stored.log with
    readers := stored.log.readers ++ [⟨stored.log.nextReader, name, cursor⟩]
    nextReader := stored.log.nextReader + 1 }
  have hadd : stored.log.addReader name offset = .ok (stored.log.nextReader, added) := by
    simp only [TopicLog.addReader, hplace, bind, Except.bind, added]
  have hfound : added.cursorOf? stored.log.nextReader = some cursor :=
    TopicLog.cursorOf?_nextReader hnumbered name cursor
  refine ⟨_, added, cursor, hadd, hfound, hoffset, fun visit once state =>
    ⟨{ stored with log := added.setCursor stored.log.nextReader cursor }, ?_,
      TopicLog.cursorOf?_setCursor hfound⟩⟩
  rw [onReader_eq hfound]
  simp only [Cursor.readEntries, Cursor.visitEntries, hremaining]

/-- The checksum of a log in use is that of the bytes of its segments. -/
theorem InUse.checksum_eq (hstored : stored.InUse) (hbytes : stored.bytes = .ok bytes) :
    stored.checksum = Checksum.ofBytes stored.log.topic stored.log.firstOffset bytes := by
  obtain ⟨⟨parts, hlaid⟩, hnumbered⟩ := hstored.laid_and_numbered
  have hkeeps := hlaid.keeps
  rw [hkeeps.bytes_eq, Except.ok.injEq] at hbytes
  rw [checksum, (hkeeps.takeChecksum_spec hnumbered).1, hbytes]

/-- Two logs that start at one offset and hold the same bytes show the same entries from every offset
    on, and have the same checksum or fail alike to have one, however their bytes are split into
    segments. Nobody notices that a checksum is taken. -/
theorem InUse.reads_alike (hleft : left.InUse) (hright : right.InUse)
    (hfirst : left.log.firstOffset = right.log.firstOffset) (hbytes : left.bytes = right.bytes) :
    left.log.maxOffset = right.log.maxOffset ∧
      (∃ bytes, left.bytes = .ok bytes ∧
        ∀ offset, left.log.firstOffset ≤ offset → offset ≤ left.log.maxOffset →
          left.Yields offset (bytes.drop (offset - left.log.firstOffset)) ∧
            right.Yields offset (bytes.drop (offset - left.log.firstOffset))) ∧
      Checksum.Alike left.checksum right.checksum ∧
      left.takeChecksum.2.log.readers = left.log.readers ∧
      right.takeChecksum.2.log.readers = right.log.readers := by
  obtain ⟨⟨leftParts, hleftLaid⟩, hleftNumbered⟩ := hleft.laid_and_numbered
  obtain ⟨⟨rightParts, hrightLaid⟩, hrightNumbered⟩ := hright.laid_and_numbered
  have hcontents : Part.contents leftParts = Part.contents rightParts := by
    rw [hleftLaid.bytes_eq, hrightLaid.bytes_eq] at hbytes
    exact Except.ok.inj hbytes
  have hleftKeeps := hleftLaid.keeps
  have hrightKeeps := hrightLaid.keeps
  rw [← hfirst, ← hcontents] at hrightKeeps
  have hend : left.log.maxOffset = right.log.maxOffset := hleftKeeps.1.symm.trans hrightKeeps.1
  refine ⟨hend, ⟨_, hleftLaid.bytes_eq, fun offset hstart hstop => ?_⟩, ?_,
    (hleftKeeps.takeChecksum_spec hleftNumbered).2,
    (hrightKeeps.takeChecksum_spec hrightNumbered).2⟩
  · have hdrop : (List.replicate left.log.firstOffset 0 ++ Part.contents leftParts).drop offset =
        (Part.contents leftParts).drop (offset - left.log.firstOffset) := by
      rw [List.drop_append, List.length_replicate, List.drop_eq_nil_of_le (by simpa using hstart),
        List.nil_append]
    rw [← hdrop]
    exact ⟨hleftKeeps.yields hleftNumbered hstart hstop,
      hrightKeeps.yields hrightNumbered (hfirst ▸ hstart) (hend ▸ hstop)⟩
  · rw [hleft.checksum_eq hleftLaid.bytes_eq,
      hright.checksum_eq (hbytes.symm.trans hleftLaid.bytes_eq), ← hfirst]
    exact Checksum.ofBytes_alike _ _ _ _

/-- A block of two entries, in one segment and in two. -/
theorem split_block_reads_alike :
    let front : Bytes := [0x00, 0x05, 0x0e, 0x28, 0xb5, 0x2f, 0xfd, 0x00, 0x38, 0x29, 0x00]
    let back : Bytes := [0x00, 0x02, 0x61, 0x62, 0x01, 0x63]
    let empty : StoredLog := ⟨{ topic := "t" }, {}⟩
    let left := empty.perform ⟨0, 0⟩ (.append (front ++ back) 0)
    let right := (empty.perform ⟨0, 0⟩ (.append front 0)).perform ⟨0, 0⟩ (.append back 0)
    left.log.segments.length = 1 ∧ right.log.segments.length = 2 ∧ left.bytes = right.bytes ∧
      left.log.maxOffset = 17 ∧
      (left.Yields 0 (front ++ back) ∧ right.Yields 0 (front ++ back)) ∧
      Block.visitAll Block.collect false none (front ++ back) [] =
        (.ok 17, [[0x63], [0x61, 0x62]]) ∧
      Checksum.Alike left.checksum right.checksum := by
  intro front back empty left right
  have hempty : empty.InUse :=
    ⟨"t", {}, empty, .missing, rfl, ⟨List.Pairwise.nil, List.IsChain.nil⟩, bounded_of_nil rfl, .refl⟩
  have hleft : left.InUse := hempty.perform (by decide) (by unfold Fits; decide)
  have hright : right.InUse := (hempty.perform (by decide) (by unfold Fits; decide)).perform
    (by decide) (by unfold Fits; decide +kernel)
  have hwhole : left.bytes = .ok (front ++ back) := by decide +kernel
  have hbytes : left.bytes = right.bytes := by decide +kernel
  have hfirst : left.log.firstOffset = 0 ∧ right.log.firstOffset = 0 := by decide +kernel
  obtain ⟨-, ⟨bytes, hheld, hyields⟩, halike, -, -⟩ :=
    hleft.reads_alike hright (hfirst.1.trans hfirst.2.symm) hbytes
  obtain rfl := Except.ok.inj (hwhole.symm.trans hheld)
  have hread : Block.read (front ++ back) =
      (.ok (some ⟨⟨5, 14⟩, [0x02, 0x61, 0x62, 0x01, 0x63]⟩), []) := by decide +kernel
  have hentries : Entries.decode [0x02, 0x61, 0x62, 0x01, 0x63] = ([[0x61, 0x62], [0x63]], none) := by
    decide +kernel
  have hshown := hyields 0 (by decide +kernel) (by decide +kernel)
  rw [hfirst.1] at hshown
  refine ⟨by decide +kernel, by decide +kernel, hbytes, by decide +kernel, hshown, ?_, halike⟩
  have hbehind : Block.read [] = (.ok none, []) := rfl
  simp only [Block.visitAll_collect_of_block hread, Block.entries, hentries,
    Block.visitAll_of_none hbehind]
  rfl

end StoredLog

end ReplicatedLog
