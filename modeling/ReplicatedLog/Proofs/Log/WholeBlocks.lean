import ReplicatedLog.Proofs.Block.Written
import ReplicatedLog.Proofs.Log.Consumption
import ReplicatedLog.Proofs.Log.Contents
import ReplicatedLog.Proofs.Log.Survival

namespace ReplicatedLog

namespace Cursor

variable {cursor moved : Cursor} {topic : String} {dir : Directory} {stored : StoredLog}
  {parts : List Part}

theorem maxOffset_nextSegment (topic : String) (dir : Directory) (cursor : Cursor) :
    (nextSegment topic dir cursor).2.maxOffset = cursor.maxOffset := by
  unfold nextSegment
  split
  · dsimp only
    split
    · rfl
    · split
      · rfl
      · split <;> rfl
  · rfl

theorem maxOffset_hasMore (topic : String) (dir : Directory) (cursor : Cursor) :
    (hasMore topic dir cursor).2.maxOffset = cursor.maxOffset := by
  fun_induction hasMore topic dir cursor with
  | case1 => rfl
  | case2 => rfl
  | case3 cursor _ _ fault moved hnext =>
    have hmoved := maxOffset_nextSegment topic dir cursor
    rwa [hnext] at hmoved
  | case4 cursor _ _ moved hnext _ ih =>
    have hmoved := maxOffset_nextSegment topic dir cursor
    rw [hnext] at hmoved
    exact ih.trans hmoved

theorem maxOffset_walk (topic : String) (dir : Directory) (cursor : Cursor) (length : Nat) :
    (walk topic dir cursor length).2.maxOffset = cursor.maxOffset := by
  fun_induction walk topic dir cursor length with
  | case1 => rfl
  | case2 => rfl
  | case3 cursor length step skipped left _ _ fault moved hnext =>
    have hmoved := maxOffset_nextSegment topic dir skipped
    rwa [hnext] at hmoved
  | case4 cursor length step skipped left _ _ moved hnext _ ih =>
    have hmoved := maxOffset_nextSegment topic dir skipped
    rw [hnext] at hmoved
    exact ih.trans hmoved

theorem maxOffset_consume (topic : String) (dir : Directory) (cursor : Cursor) (length : Nat) :
    (consume topic dir cursor length).2.maxOffset = cursor.maxOffset := by
  have hwalk := maxOffset_walk topic dir cursor length
  unfold consume
  dsimp only
  split
  · rfl
  · split
    next fault moved hmoved => rwa [hmoved] at hwalk
    next moved hmoved =>
      rw [hmoved] at hwalk
      split
      · exact (maxOffset_nextSegment topic dir moved).trans hwalk
      · exact hwalk

theorem maxOffset_nextRegion (topic : String) (dir : Directory) (cursor : Cursor) (limit : Nat) :
    (nextRegion topic dir cursor limit).2.maxOffset = cursor.maxOffset := by
  have hmore := maxOffset_hasMore topic dir cursor
  unfold nextRegion
  split
  next hmoved => rwa [hmoved] at hmore
  next hmoved => rwa [hmoved] at hmore
  next hmoved => rwa [hmoved] at hmore

end Cursor

namespace TopicLog

variable {log after : TopicLog}

/-- All registered readers know where the log ends. -/
def Synced (log : TopicLog) : Prop :=
  ∀ reader ∈ log.readers, reader.cursor.maxOffset = log.maxOffset

theorem Synced.mapCursors {change : Cursor → Cursor} {maxOffset : Nat}
    (hchange : ∀ reader ∈ log.readers, (change reader.cursor).maxOffset = maxOffset) :
    ∀ reader ∈ (log.mapCursors change).readers, reader.cursor.maxOffset = maxOffset := by
  intro reader hmem
  obtain ⟨old, hold, rfl⟩ := List.mem_map.mp hmem
  exact hchange old hold

theorem Synced.widened (hsynced : log.Synced) (hwide : log.Widened after) : after.Synced := by
  cases hwide with
  | same => exact hsynced
  | added segment _ => exact Synced.mapCursors hsynced

theorem Synced.grown (hsynced : log.Synced) {length : Nat} (hgrown : log.Grown length after) :
    after.Synced := by
  obtain ⟨wide, active, hwide, -⟩ := hgrown
  have hnoted := hsynced.widened hwide
  exact Synced.mapCursors fun reader hmem => congrArg (· + length) (hnoted reader hmem)

theorem Synced.cleaned (hsynced : log.Synced) {gate : Nat} (hcleaned : log.Cleaned gate after) :
    after.Synced := by
  intro reader hmem
  rw [hcleaned.readers_eq] at hmem
  rw [hcleaned.maxOffset_eq]
  exact hsynced reader hmem

end TopicLog

namespace StoredLog

variable {opened stored : StoredLog} {parts : List Part} {history : Bytes} {now : Instant}

theorem Turns.maxOffset_eq {action : LogAction} {id : Nat} {cursor moved : Cursor}
    (hturns : stored.Turns action id cursor moved) (hmax : cursor.maxOffset = stored.log.maxOffset) :
    moved.maxOffset = stored.log.maxOffset := by
  cases hturns with
  | hasMore => exact (Cursor.maxOffset_hasMore _ _ cursor).trans hmax
  | nextRegion _ limit => exact (Cursor.maxOffset_nextRegion _ _ cursor limit).trans hmax
  | consume _ length => exact (Cursor.maxOffset_consume _ _ cursor length).trans hmax
  | refused => exact hmax
  | placed _ _ hplace => exact (Cursor.follows_of_place hplace).1.maxOffset_eq

/-- Whatever is done with a log, its registered readers go on knowing where it ends. -/
theorem Becomes.synced {action : LogAction} {after : StoredLog}
    (hbecomes : stored.Becomes parts action after) (hsynced : stored.log.Synced)
    (hgoes : ∀ offset, action ≠ .resumeAt offset) : after.log.Synced := by
  cases hbecomes with
  | same => exact hsynced
  | grown _ _ hgrown => exact hsynced.grown hgrown
  | rolled _ _ hwide => exact hsynced.widened hwide
  | resumed => exact absurd rfl (hgoes _)
  | cleaned hkept => exact hsynced.cleaned hkept.cleaned
  | cleanedAll hkept => exact hsynced.cleaned hkept.cleaned
  | registered hadd =>
    obtain ⟨placed, hplace, rfl⟩ := TopicLog.addReader_eq_ok hadd
    intro reader hmem
    rcases List.mem_append.mp hmem with hold | hnew
    · exact hsynced reader hold
    · rw [List.mem_singleton.mp hnew]
      exact (Cursor.follows_of_place hplace).1.maxOffset_eq
  | released id => exact fun reader hmem => hsynced reader (List.mem_filter.mp hmem).1
  | turned hreader hturns =>
    intro changed hmem
    obtain ⟨old, hold, rfl⟩ := List.mem_map.mp hmem
    change _ = stored.log.maxOffset
    split
    next hid =>
      exact hturns.maxOffset_eq (hsynced _ (TopicLog.mem_readers_of_reader? hreader hold hid))
    next => exact hsynced old hold

/-- The log of a directory without files has no history. -/
theorem keeps_nil_of_open {topic : String} {dir : Directory} (hdir : dir.Sound)
    (hempty : dir.files = []) (hopen : ofDirectory topic dir = .ok opened) : opened.Keeps [] := by
  obtain ⟨parts, hholds, rfl⟩ := ofDirectory_eq_ok_iff.mp hopen
  obtain rfl : parts = [] := List.map_eq_nil_iff.mp (hholds.files.symm.trans hempty)
  refine ⟨rfl, [], ⟨hdir, hempty, rfl, by simp, rfl, Nat.zero_le _, fun opened hopened => ?_⟩, rfl⟩
  cases hopened

/-- One log comes from another by actions that write whole blocks, and by others that add nothing. -/
inductive WritesBlocks (compress : Zstd.Compressor) (opened : StoredLog) :
    StoredLog → List (WrittenBlock compress) → Prop
  | refl : WritesBlocks compress opened opened []
  | step {stored : StoredLog} {blocks : List (WrittenBlock compress)}
      (hwrites : WritesBlocks compress opened stored blocks) (now : Instant) (action : LogAction)
      (more : List (WrittenBlock compress)) (hnow : now.InCalendar) (hfits : stored.Fits action)
      (hgoes : ∀ offset, action ≠ .resumeAt offset)
      (hadds : stored.adds action = WrittenBlock.contents more) :
      WritesBlocks compress opened (stored.perform now action) (blocks ++ more)

namespace WritesBlocks

variable {compress : Zstd.Compressor} {blocks : List (WrittenBlock compress)}

theorem keeps (hwrites : WritesBlocks compress opened stored blocks) (hopened : opened.Keeps []) :
    stored.Keeps (WrittenBlock.contents blocks) := by
  induction hwrites with
  | refl => exact hopened
  | step _ now action more hnow hfits hgoes hadds ih =>
    have hkeeps := ih.perform hnow action hfits hgoes
    rwa [hadds, ← WrittenBlock.contents_append] at hkeeps

theorem synced (hwrites : WritesBlocks compress opened stored blocks) (hopened : opened.Keeps [])
    (hsynced : opened.log.Synced) : stored.log.Synced := by
  induction hwrites with
  | refl => exact hsynced
  | step hwrites now action more hnow hfits hgoes hadds ih =>
    obtain ⟨-, parts, hlaid, -⟩ := hwrites.keeps hopened
    exact (hlaid.perform_becomes hnow action hfits).synced ih hgoes

/-- A registered reader on the boundary of two blocks is shown exactly the entries behind it, unless
    the segment that its cursor stands in was deleted and there is more to read. -/
theorem reads_blocks {topic : String} {dir : Directory} (hlossless : Zstd.Lossless compress)
    (hdir : dir.Sound) (hempty : dir.files = []) (hopen : ofDirectory topic dir = .ok opened)
    (hwrites : WritesBlocks compress opened stored blocks) {reader : Reader}
    (hreader : reader ∈ stored.log.readers) {count : Nat}
    (hboundary : reader.cursor.offset = (WrittenBlock.contents (blocks.take count)).length)
    (hstands : reader.cursor.Stands stored.log ∨ reader.cursor.offset = stored.log.maxOffset) :
    reader.cursor.visitEntries stored.dir Block.collect false [] =
      (.ok (stored.log.maxOffset - reader.cursor.offset),
        ((blocks.drop count).flatMap (·.entries)).reverse) := by
  have hopened := keeps_nil_of_open hdir hempty hopen
  have hkeeps := hwrites.keeps hopened
  have hnone : opened.log.Synced := by
    unfold TopicLog.Synced
    rw [readers_of_ofDirectory hopen]
    exact nofun
  have hmax := hwrites.synced hopened hnone reader hreader
  have hremaining : reader.cursor.remaining stored.dir =
      (WrittenBlock.contents (blocks.drop count), none) := by
    rw [← WrittenBlock.contents_drop, ← hboundary]
    rcases hstands with hstands | hend
    · exact hstands.remaining_eq hkeeps hmax
    · rw [Cursor.remaining_of_end (hmax.trans hend.symm).le, hend, ← hkeeps.1, List.drop_length]
  have hread := WrittenBlock.readAll_contents hlossless (blocks.drop count)
  have hwhole : ∀ block ∈ (blocks.drop count).map WrittenBlock.block, block.entries.2 = none := by
    intro block hmem
    obtain ⟨written, -, rfl⟩ := List.mem_map.mp hmem
    rw [written.entries_block]
  rw [Cursor.visitEntries, hremaining]
  dsimp only
  rw [Block.visitAll_collect hread hwhole, List.append_nil, ← WrittenBlock.length_contents,
    ← WrittenBlock.contents_drop, ← hboundary, List.length_drop, hkeeps.1, List.flatMap_map]
  simp only [WrittenBlock.entries_block]

end WritesBlocks

/-- The block of a single entry. -/
def oneEntry (entry : Bytes)
    (hfits : (Block.framed Zstd.storing 3 (Entries.encode [entry])).header.Fits) :
    WrittenBlock Zstd.storing where
  raw := Entries.encode [entry]
  level := 3
  bytes := Block.framedBytes Zstd.storing 3 (Entries.encode [entry])
  entries := [entry]
  framed := Block.frameBy_eq hfits
  decoded := Block.entries_framed hfits

/-- A reader where the second of two blocks starts is shown it after the first one was deleted. -/
theorem reads_behind_cleanup :
    let opened : StoredLog := ⟨{ topic := "t" }, {}⟩
    let first := oneEntry [1] ⟨by decide +kernel, by decide +kernel⟩
    let second := oneEntry [2] ⟨by decide +kernel, by decide +kernel⟩
    let full := (opened.perform ⟨0, 0⟩ (.append first.bytes 1)).perform ⟨0, 0⟩ (.append second.bytes 1)
    let stored := (full.perform ⟨0, 0⟩ (.addReader "r" 13)).perform ⟨0, 0⟩ (.cleanup 0)
    ∃ reader ∈ stored.log.readers, stored.log.firstOffset = 13 ∧ reader.cursor.offset = 13 ∧
      reader.cursor.visitEntries stored.dir Block.collect false [] = (.ok 14, [[2]]) := by
  intro opened first second full stored
  have hfull : WritesBlocks Zstd.storing opened full [first, second] :=
    .step (.step .refl ⟨0, 0⟩ (.append first.bytes 1) [first] (by decide)
        (by unfold Fits; decide +kernel) nofun (List.append_nil _).symm)
      ⟨0, 0⟩ (.append second.bytes 1) [second] (by decide) (by unfold Fits; decide +kernel) nofun
        (List.append_nil _).symm
  have hstored : WritesBlocks Zstd.storing opened stored [first, second] :=
    .step (.step hfull ⟨0, 0⟩ (.addReader "r" 13) [] (by decide) trivial nofun rfl)
      ⟨0, 0⟩ (.cleanup 0) [] (by decide) trivial nofun rfl
  let segment : Segment := ⟨SegmentName.encode 13 ⟨0, 0⟩, 13⟩
  let cursor : Cursor :=
    { segments := [segment], offset := 13, position := 0, boundary := 27, maxOffset := 27 }
  have hreader : ⟨0, "r", cursor⟩ ∈ stored.log.readers := by decide +kernel
  have hsegments : stored.log.segments = [segment] := by decide +kernel
  have hstands : cursor.Stands stored.log :=
    .intro [] segment [] hsegments rfl rfl (by decide +kernel)
  have hboundary : cursor.offset = (WrittenBlock.contents ([first, second].take 1)).length := by
    decide +kernel
  have hread := hstored.reads_blocks Zstd.lossless_storing .missing rfl rfl hreader hboundary
    (Or.inl hstands)
  have hend : stored.log.maxOffset = 27 := by decide +kernel
  have hentries : (([first, second].drop 1).flatMap (·.entries)).reverse = [[2]] := rfl
  rw [hend, hentries] at hread
  exact ⟨_, hreader, by decide +kernel, rfl, hread⟩

/-- A reader that is through with the first block is shown nothing of the second one once the file of the
    first one was deleted: it still begins with that file. -/
theorem fails_behind_deleted_segment :
    let opened : StoredLog := ⟨{ topic := "t" }, {}⟩
    let first := oneEntry [1] ⟨by decide +kernel, by decide +kernel⟩
    let second := oneEntry [2] ⟨by decide +kernel, by decide +kernel⟩
    let read := (opened.perform ⟨0, 0⟩ (.append first.bytes 1)).perform ⟨0, 0⟩ (.addReader "r" 13)
    let stored := (read.perform ⟨0, 0⟩ (.append second.bytes 1)).perform ⟨0, 0⟩ (.cleanup 0)
    ofDirectory "t" {} = .ok opened ∧ WritesBlocks Zstd.storing opened stored [first, second] ∧
      ∃ reader ∈ stored.log.readers,
        reader.cursor.offset = (WrittenBlock.contents ([first, second].take 1)).length ∧
        stored.log.firstOffset = reader.cursor.offset ∧
        reader.cursor.visitEntries stored.dir Block.collect false [] =
          (.error (.io .notFound), []) := by
  intro opened first second read stored
  have hread : WritesBlocks Zstd.storing opened read [first] :=
    .step (.step .refl ⟨0, 0⟩ (.append first.bytes 1) [first] (by decide)
        (by unfold Fits; decide +kernel) nofun (List.append_nil _).symm)
      ⟨0, 0⟩ (.addReader "r" 13) [] (by decide) trivial nofun rfl
  have hstored : WritesBlocks Zstd.storing opened stored [first, second] :=
    .step (.step hread ⟨0, 0⟩ (.append second.bytes 1) [second] (by decide)
        (by unfold Fits; decide +kernel) nofun (List.append_nil _).symm)
      ⟨0, 0⟩ (.cleanup 0) [] (by decide) trivial nofun rfl
  let cursor : Cursor := {
    segments := [⟨SegmentName.encode 0 ⟨0, 0⟩, 0⟩, ⟨SegmentName.encode 13 ⟨0, 0⟩, 13⟩]
    offset := 13
    position := 13
    boundary := 13
    maxOffset := 27 }
  have hreader : ⟨0, "r", cursor⟩ ∈ stored.log.readers := by decide +kernel
  have hremaining : cursor.remaining stored.dir = ([], some .notFound) := by decide +kernel
  refine ⟨rfl, hstored, _, hreader, by decide +kernel, by decide +kernel, ?_⟩
  rw [Cursor.visitEntries, hremaining]
  exact Block.visitAll_of_none (show Block.read [] = (.ok none, []) from rfl)

end StoredLog

end ReplicatedLog
