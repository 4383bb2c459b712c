import ReplicatedLog.Proofs.Log.Trailing

namespace ReplicatedLog

/-- The actions that leave a reader where it is, and never take the last segment of a log. -/
def LogAction.Spares (id : Nat) : LogAction → Prop
  | .resumeAt _ | .cleanupAll _ _ => False
  | .removeReader other | .nextRegion other _ | .consume other _ | .seek other _ => other ≠ id
  | _ => True

namespace TopicLog

variable {log after : TopicLog} {id other : Nat} {cursor moved : Cursor}

/-- A registered reader stands at `cursor`, which trails the log. -/
structure Reads (log : TopicLog) (id : Nat) (cursor : Cursor) : Prop where
  found : log.cursorOf? id = some cursor
  trails : cursor.Trails log

/-- A reader keeps its place in another log, and with it the region that it was offered. -/
def Resumes (after : TopicLog) (id : Nat) (cursor : Cursor) : Prop :=
  ∃ moved, after.Reads id moved ∧ moved.offset = cursor.offset ∧
    ∀ region, cursor.Offers region → moved.Offers region

theorem cursorOf?_setCursor_of_ne (hne : other ≠ id) :
    (log.setCursor other moved).cursorOf? id = log.cursorOf? id := by
  have hsame : (fun reader : Reader => decide (reader.id = id)) ∘
      (fun reader : Reader =>
        if reader.id = other then { reader with cursor := moved } else reader) =
      fun reader => decide (reader.id = id) := by
    funext reader
    by_cases hreader : reader.id = other <;> simp [hreader]
  simp only [cursorOf?, setCursor, List.find?_map, hsame, Option.map_map]
  cases hfind : log.readers.find? fun reader => decide (reader.id = id) with
  | none => rfl
  | some reader =>
    have hid : reader.id = id := by simpa using List.find?_some hfind
    simp [hid, hne.symm]

namespace Reads

theorem resumes (hreads : log.Reads id cursor) : log.Resumes id cursor :=
  ⟨cursor, hreads, rfl, fun _ hoffers => hoffers⟩

/-- The readers of a log matter to one of them only where its own cursor is changed. -/
theorem of_cursorOf?_eq (hreads : log.Reads id cursor)
    (hfound : after.cursorOf? id = log.cursorOf? id) (hsegments : after.segments = log.segments)
    (hend : after.maxOffset = log.maxOffset) : after.Reads id cursor :=
  ⟨hfound.trans hreads.found, hreads.trails.congr hsegments hend⟩

theorem widened (hreads : log.Reads id cursor) (hwide : log.Widened after) :
    after.Resumes id cursor := by
  cases hwide with
  | same => exact hreads.resumes
  | added segment hoffset =>
    refine ⟨cursor.addSegment segment, ⟨?_, hreads.trails.addSegment hoffset⟩, rfl, ?_⟩
    · exact (cursorOf?_mapCursors _).trans (congrArg _ hreads.found)
    · exact fun region hoffers => hoffers.addSegment hreads.trails.follows hoffset

theorem grown (hreads : log.Reads id cursor) {length : Nat} (hgrown : log.Grown length after) :
    after.Resumes id cursor := by
  obtain ⟨wide, active, hwide, hsegments⟩ := hgrown
  obtain ⟨noted, hnoted, hoffset, hoffers⟩ := hreads.widened hwide
  refine ⟨noted.addBytes length, ⟨?_, ?_⟩, hoffset, ?_⟩
  · exact (cursorOf?_mapCursors _).trans (congrArg _ hnoted.found)
  · exact (hnoted.trails.addBytes hsegments length).congr rfl rfl
  · exact fun region hregion => (hoffers region hregion).addBytes hnoted.trails.follows length

theorem cleaned (hreads : log.Reads id cursor) (hordered : log.Ordered) {gate : Nat}
    (hcleaned : log.Cleaned gate after) (hgate : gate ≤ log.gate)
    (hleft : after.segments = [] → log.segments = []) : after.Reads id cursor := by
  refine ⟨?_, hreads.trails.cleaned hordered hcleaned (hgate.trans (gate_le hreads.found)) hleft⟩
  rw [cursorOf?, hcleaned.readers_eq]
  exact hreads.found

theorem setCursor (hreads : log.Reads id cursor) (hmoved : moved.Trails log) :
    (log.setCursor id moved).Reads id moved :=
  ⟨cursorOf?_setCursor hreads.found, hmoved.congr rfl rfl⟩

theorem addReader (hreads : log.Reads id cursor) {name : String} {offset : Nat}
    {added : Nat × TopicLog} (hadd : log.addReader name offset = .ok added) :
    added.2.Reads id cursor := by
  obtain ⟨placed, -, rfl⟩ := addReader_eq_ok hadd
  obtain ⟨reader, hreader, hcursor⟩ := Option.map_eq_some_iff.mp hreads.found
  refine ⟨?_, hreads.trails.congr rfl rfl⟩
  simp [cursorOf?, List.find?_append, hreader, hcursor]

end Reads

end TopicLog

namespace StoredLog

variable {stored after : StoredLog} {parts : List Part} {history : Bytes} {now : Instant}
  {action : LogAction} {cursor : Cursor} {id : Nat}

theorem onReader_eq (hfound : stored.log.cursorOf? id = some cursor) {α : Type}
    (work : String → Directory → Cursor → Except Fault α × Cursor) :
    stored.onReader id work = ((work stored.log.topic stored.dir cursor).1, { stored with
      log := stored.log.setCursor id (work stored.log.topic stored.dir cursor).2 }) := by
  obtain ⟨reader, -, -, rfl, hreader⟩ := TopicLog.exists_reader_of_cursorOf? hfound
  exact onReader_of_reader? hreader work

theorem Keeps.append_nil (hkeeps : stored.Keeps history) {data : Bytes} (hnone : data = []) :
    stored.Keeps (history ++ data) := by
  rw [hnone, List.append_nil]
  exact hkeeps

/-- What an action adds to a log is added at the end of its history, unless the log starts anew. -/
theorem Becomes.keeps (hbecomes : stored.Becomes parts action after) (hlaid : stored.Laid parts)
    (hkeeps : stored.Keeps history) (hgoes : ∀ offset, action ≠ .resumeAt offset) :
    after.Keeps (history ++ stored.adds action) := by
  cases hbecomes with
  | same hnone => exact hkeeps.append_nil hnone
  | grown hafter hcontents hgrown => exact hkeeps.of_grown hlaid hafter hcontents hgrown
  | rolled hafter hcontents hwide =>
    exact (hkeeps.of_widened hlaid hafter hcontents hwide).append_nil rfl
  | resumed => exact absurd rfl (hgoes _)
  | cleaned hkept => exact (hkeeps.of_kept hlaid hkept).append_nil rfl
  | cleanedAll hkept => exact (hkeeps.of_kept hlaid hkept).append_nil rfl
  | registered hadd =>
    obtain ⟨placed, -, rfl⟩ := TopicLog.addReader_eq_ok hadd
    refine Keeps.append_nil ?_ rfl
    exact hkeeps.of_log_eq rfl rfl rfl
  | released other =>
    refine Keeps.append_nil ?_ rfl
    exact hkeeps.of_log_eq rfl rfl rfl
  | turned _ hturns =>
    refine Keeps.append_nil ?_ hturns.adds_eq_nil
    exact hkeeps.of_log_eq rfl rfl rfl

theorem Keeps.perform (hkeeps : stored.Keeps history) (hnow : now.InCalendar) (action : LogAction)
    (hfits : stored.Fits action) (hgoes : ∀ offset, action ≠ .resumeAt offset) :
    (stored.perform now action).Keeps (history ++ stored.adds action) := by
  obtain ⟨parts, hlaid, -⟩ := hkeeps.2
  exact (hlaid.perform_becomes hnow action hfits).keeps hlaid hkeeps hgoes

/-- A reader that is left alone, or only asked for more, keeps its place. -/
theorem Turns.resumes {other : Nat} {reader : Reader} {moved : Cursor}
    (hturns : stored.Turns action other reader.cursor moved)
    (hreader : stored.log.reader? other = some reader) (hlaid : stored.Laid parts)
    (hreads : stored.log.Reads id cursor) (hspares : action.Spares id) :
    (stored.log.setCursor other moved).Resumes id cursor := by
  have hothers : other ≠ id → (stored.log.setCursor other moved).Resumes id cursor := fun hne =>
    (hreads.of_cursorOf?_eq (TopicLog.cursorOf?_setCursor_of_ne hne) rfl rfl).resumes
  cases hturns with
  | hasMore =>
    by_cases hown : other = id
    · subst hown
      obtain ⟨found, -, -, rfl, hfound⟩ := TopicLog.exists_reader_of_cursorOf? hreads.found
      obtain rfl : found = reader := Option.some.inj (hfound.symm.trans hreader)
      obtain ⟨more, moved, hmore, hmoved, hoffset, -, -, hstays⟩ :=
        hreads.trails.hasMore hlaid stored.log.topic
      rw [hmore]
      refine ⟨moved, hreads.setCursor hmoved, hoffset, fun region hoffers => ?_⟩
      rw [hstays hoffers.available_pos]
      exact hoffers
    · exact hothers hown
  | nextRegion => exact hothers hspares
  | consume => exact hothers hspares
  | refused => exact hothers hspares
  | placed => exact hothers hspares

/-- A reader that is left alone keeps its place, whatever else is done with the log. -/
theorem Becomes.resumes (hbecomes : stored.Becomes parts action after) (hlaid : stored.Laid parts)
    (hreads : stored.log.Reads id cursor) (hspares : action.Spares id) :
    after.log.Resumes id cursor := by
  cases hbecomes with
  | same => exact hreads.resumes
  | grown _ _ hgrown => exact hreads.grown hgrown
  | rolled _ _ hwide => exact hreads.widened hwide
  | resumed => exact hspares.elim
  | cleaned hkept hlast => exact (hreads.cleaned hlaid.ordered hkept.cleaned le_rfl hlast).resumes
  | cleanedAll => exact hspares.elim
  | registered hadd => exact (hreads.addReader hadd).resumes
  | released other =>
    have hfound : (stored.log.removeReader other).cursorOf? id = stored.log.cursorOf? id :=
      TopicLog.cursorOf?_removeReader (Ne.symm hspares)
    exact (hreads.of_cursorOf?_eq hfound rfl rfl).resumes
  | turned hreader hturns => exact hturns.resumes hreader hlaid hreads hspares

theorem Keeps.perform_spec (hkeeps : stored.Keeps history) (hreads : stored.log.Reads id cursor)
    (hnow : now.InCalendar) (action : LogAction) (hfits : stored.Fits action)
    (hspares : action.Spares id) :
    (stored.perform now action).Keeps (history ++ stored.adds action) ∧
      (stored.perform now action).log.Resumes id cursor := by
  have hgoes : ∀ offset, action ≠ .resumeAt offset := by
    rintro offset rfl
    exact hspares
  obtain ⟨parts, hlaid, -⟩ := hkeeps.2
  exact ⟨hkeeps.perform hnow action hfits hgoes,
    (hlaid.perform_becomes hnow action hfits).resumes hlaid hreads hspares⟩

/-- A region that ends within its segment ends within the file of it. -/
theorem Keeps.size_of_within (hkeeps : stored.Keeps history) {region : Region}
    (hregion : region.Within stored.log) :
    ∃ size, stored.dir.size region.segment.name = .ok size ∧
      region.position + region.length ≤ size := by
  obtain ⟨-, parts, hlaid, -⟩ := hkeeps
  obtain ⟨⟨passed, rest, hsegments, hend⟩, hposition⟩ := hregion
  obtain ⟨front, part, back, rfl, hpart, rfl, rfl⟩ := hlaid.exists_split hsegments
  rw [← hpart, hlaid.chained.segmentEnd_eq] at hend
  rw [← hpart] at hposition
  refine ⟨part.file.bytes.length, ?_, by omega⟩
  rw [← hpart]
  exact hlaid.size_of_mem (by simp)

/-- Every action gives a new reader an identity of its own. -/
theorem Becomes.numbered (hbecomes : stored.Becomes parts action after) (hlaid : stored.Laid parts)
    (hnumbered : stored.log.Numbered) : after.log.Numbered := by
  cases hbecomes with
  | same => exact hnumbered
  | grown _ _ hgrown => exact hgrown.numbered hnumbered
  | rolled _ _ hwide => exact hwide.numbered hnumbered
  | resumed => exact TopicLog.numbered_startedAt hnumbered _
  | cleaned hkept => exact hkept.cleaned.numbered hnumbered
  | cleanedAll hkept => exact hkept.cleaned.numbered hnumbered
  | registered hadd => exact (TopicLog.addReader_spec hadd hnumbered hlaid.ordered).2.1
  | released other => exact TopicLog.numbered_removeReader hnumbered
  | turned => exact TopicLog.numbered_setCursor hnumbered

theorem Reaches.numbered {start : StoredLog} (hreaches : Reaches start stored)
    (hstart : start.Laid parts) (hnumbered : start.log.Numbered) : stored.log.Numbered := by
  induction hreaches with
  | refl => exact hnumbered
  | step hbefore now action hnow hfits ih =>
    obtain ⟨others, hothers, -⟩ := hbefore.laid hstart
    exact (hothers.perform_becomes hnow action hfits).numbered hothers ih

end StoredLog

/-- A log with one of its readers, the region that this one took last and did not give up yet, and
    the bytes of all regions that it gave up. -/
structure Reading where
  stored : StoredLog
  reader : Nat
  region : Option Region := none
  bytes : Bytes := []

namespace Reading

/-- Takes the next region. -/
def next (reading : Reading) (limit : Nat) : Reading :=
  let (outcome, stored) := reading.stored.onReader reading.reader fun topic dir cursor =>
    cursor.nextRegion topic dir limit
  { reading with stored, region := outcome.toOption.join }

/-- Reads the region that was taken last, and gives it up. -/
def consume (reading : Reading) : Reading :=
  match reading.region with
  | none => reading
  | some region =>
    let read := reading.stored.dir.readRegion region
    let (_, stored) := reading.stored.onReader reading.reader fun topic dir cursor =>
      cursor.consume topic dir region.length
    { reading with stored, region := none, bytes := reading.bytes ++ read.toOption.getD [] }

/-- The reader takes and gives up regions, while other things are done with the log. All bytes that
    were added to the log meanwhile are kept. -/
inductive Reaches (start : Reading) : Reading → Bytes → Prop
  | refl : Reaches start start []
  | log {reading : Reading} {added : Bytes} (hreaches : Reaches start reading added) (now : Instant)
      (action : LogAction) (hnow : now.InCalendar) (hfits : reading.stored.Fits action)
      (hspares : action.Spares reading.reader) :
      Reaches start { reading with stored := reading.stored.perform now action }
        (added ++ reading.stored.adds action)
  | next {reading : Reading} {added : Bytes} (hreaches : Reaches start reading added) (limit : Nat)
      (hlimit : 1 ≤ limit) : Reaches start (reading.next limit) added
  | consume {reading : Reading} {added : Bytes} (hreaches : Reaches start reading added) :
      Reaches start reading.consume added

end Reading

/-- A region that is not empty and lies within its file, whose bytes are those of `history` at its
    offset. -/
structure Region.Shows (region : Region) (dir : Directory) (history : Bytes) : Prop where
  nonempty : 0 < region.length
  onDisk : ∃ size, dir.size region.segment.name = .ok size ∧
    region.position + region.length ≤ size
  bounded : region.offset + region.length ≤ history.length
  bytes : dir.readRegion region = .ok ((history.drop region.offset).take region.length)

namespace Reading

/-- No call for the reader fails, and it read what `history` has between `start` and its place. -/
structure Exact (reading : Reading) (start : Nat) (history : Bytes) (cursor : Cursor) : Prop where
  found : reading.stored.log.cursorOf? reading.reader = some cursor
  holds : reading.stored.Holds reading.stored.log.firstOffset history
  maxOffset : cursor.maxOffset = reading.stored.log.maxOffset
  passed : start ≤ cursor.offset ∧ cursor.offset ≤ cursor.maxOffset
  bytes : reading.bytes = (history.take cursor.offset).drop start
  more : (reading.stored.onReader reading.reader fun topic dir cursor =>
      cursor.hasMore topic dir).1 = .ok (decide (cursor.offset < cursor.maxOffset))
  next : ∀ limit, 1 ≤ limit → ∃ region?,
    (reading.stored.onReader reading.reader fun topic dir cursor =>
      cursor.nextRegion topic dir limit).1 = .ok region? ∧
    (region? = none ↔ cursor.offset = cursor.maxOffset) ∧
    ∀ region, region? = some region → region.offset = cursor.offset ∧ region.length ≤ limit ∧
      region.Shows reading.stored.dir history
  taken : ∀ region, reading.region = some region → region.offset = cursor.offset ∧
    region.Shows reading.stored.dir history ∧
    (reading.stored.onReader reading.reader fun topic dir cursor =>
      cursor.consume topic dir region.length).1 = .ok ()

/-- What every step of a reader preserves. -/
structure Keeps (reading : Reading) (first : Nat) (history : Bytes) (cursor : Cursor) : Prop where
  log : reading.stored.Keeps history
  reads : reading.stored.log.Reads reading.reader cursor
  first_le : first ≤ cursor.offset
  bytes : reading.bytes = (history.take cursor.offset).drop first
  taken : ∀ region, reading.region = some region → cursor.Offers region

end Reading

theorem StoredLog.Keeps.shows {stored : StoredLog} {history : Bytes} {cursor : Cursor}
    {region : Region} (hkeeps : stored.Keeps history) (hoffers : cursor.Offers region)
    (htrails : cursor.Trails stored.log) : region.Shows stored.dir history := by
  have hwithin := hoffers.within htrails.follows
  obtain ⟨hread, hbounded⟩ := hkeeps.readRegion_eq hwithin
  exact ⟨hoffers.positive, hkeeps.size_of_within hwithin, hbounded, hread⟩

namespace Reading

variable {start reading : Reading} {first : Nat} {history added : Bytes} {cursor : Cursor}

namespace Keeps

theorem log_step (hkeeps : reading.Keeps first history cursor) {now : Instant}
    (hnow : now.InCalendar) {action : LogAction} (hfits : reading.stored.Fits action)
    (hspares : action.Spares reading.reader) :
    ∃ moved, Keeps { reading with stored := reading.stored.perform now action } first
      (history ++ reading.stored.adds action) moved := by
  obtain ⟨hlog, moved, hreads, hoffset, hoffers⟩ :=
    hkeeps.log.perform_spec hkeeps.reads hnow action hfits hspares
  refine ⟨moved, hlog, hreads, hkeeps.first_le.trans hoffset.ge, ?_, fun region hregion =>
    hoffers region (hkeeps.taken region hregion)⟩
  have hplace := hkeeps.reads.trails.follows.offset_le hkeeps.log.ordered
  rw [hoffset, List.take_append_of_le_length (hplace.trans hkeeps.log.1.ge)]
  exact hkeeps.bytes

theorem next_step (hkeeps : reading.Keeps first history cursor) {limit : Nat} (hlimit : 1 ≤ limit) :
    ∃ moved, (reading.next limit).Keeps first history moved := by
  obtain ⟨hlength, parts, hlaid, hcontents⟩ := id hkeeps.log
  obtain ⟨region?, moved, hnext, hmoved, hoffset, -, hoffers⟩ :=
    hkeeps.reads.trails.nextRegion hlaid reading.stored.log.topic hlimit
  have hstep : reading.next limit = { reading with
      stored := { reading.stored with log := reading.stored.log.setCursor reading.reader moved }
      region := region? } := by
    simp only [next, StoredLog.onReader_eq hkeeps.reads.found, hnext]
    rfl
  rw [hstep]
  refine ⟨moved, hkeeps.log.of_log_eq rfl rfl rfl, hkeeps.reads.setCursor hmoved,
    hkeeps.first_le.trans hoffset.ge, ?_, fun region hregion => (hoffers region hregion).1⟩
  rw [hoffset]
  exact hkeeps.bytes

theorem consume_step (hkeeps : reading.Keeps first history cursor) :
    ∃ moved, reading.consume.Keeps first history moved := by
  cases hregion : reading.region with
  | none =>
    refine ⟨cursor, ?_⟩
    simp only [consume, hregion]
    exact hkeeps
  | some region =>
    have hoffers := hkeeps.taken region hregion
    obtain ⟨-, -, hbounded, hread⟩ := hkeeps.log.shows hoffers hkeeps.reads.trails
    obtain ⟨hlength, parts, hlaid, hcontents⟩ := id hkeeps.log
    obtain ⟨moved, hconsume, hmoved, hoffset⟩ :=
      hkeeps.reads.trails.consume hlaid hoffers.length_le reading.stored.log.topic
    have hstep : reading.consume = { reading with
        stored := { reading.stored with log := reading.stored.log.setCursor reading.reader moved }
        region := none
        bytes := reading.bytes ++ (history.drop region.offset).take region.length } := by
      simp only [consume, hregion, StoredLog.onReader_eq hkeeps.reads.found, hconsume, hread]
      rfl
    rw [hstep]
    have hfirst := hkeeps.first_le
    refine ⟨moved, hkeeps.log.of_log_eq rfl rfl rfl, hkeeps.reads.setCursor hmoved, by omega, ?_,
      by simp⟩
    have hlong : first ≤ (history.take cursor.offset).length := by
      rw [List.length_take]
      rw [hoffers.offset] at hbounded
      omega
    rw [hkeeps.bytes, hoffset, List.take_add, List.drop_append_of_le_length hlong, hoffers.offset]

theorem exact (hkeeps : reading.Keeps first history cursor) :
    reading.Exact first history cursor := by
  obtain ⟨hlength, parts, hlaid, hcontents⟩ := id hkeeps.log
  have htrails := hkeeps.reads.trails
  have hmax := htrails.follows.maxOffset_eq
  have hwork : ∀ {α : Type} (work : String → Directory → Cursor → Except Fault α × Cursor),
      (reading.stored.onReader reading.reader work).1 =
        (work reading.stored.log.topic reading.stored.dir cursor).1 := fun work =>
    congrArg Prod.fst (StoredLog.onReader_eq hkeeps.reads.found work)
  refine ⟨hkeeps.reads.found, hkeeps.log.holds, hmax,
    ⟨hkeeps.first_le, hmax ▸ htrails.follows.offset_le hlaid.ordered⟩, hkeeps.bytes, ?_, ?_, ?_⟩
  · obtain ⟨more, moved, hmore, -, -, hsome, hend, -⟩ :=
      htrails.hasMore hlaid reading.stored.log.topic
    rw [hwork, hmore, hmax]
    simp [← hend, ← hsome]
  · intro limit hlimit
    obtain ⟨region?, moved, hnext, hmoved, hoffset, hnone, hoffers⟩ :=
      htrails.nextRegion hlaid reading.stored.log.topic hlimit
    refine ⟨region?, by rw [hwork, hnext], hmax ▸ hnone, fun region hregion => ?_⟩
    obtain ⟨hoffer, hlong⟩ := hoffers region hregion
    exact ⟨hoffer.offset.trans hoffset, hlong, hkeeps.log.shows hoffer hmoved⟩
  · intro region hregion
    have hoffers := hkeeps.taken region hregion
    obtain ⟨moved, hconsume, -⟩ :=
      htrails.consume hlaid hoffers.length_le reading.stored.log.topic
    exact ⟨hoffers.offset, hkeeps.log.shows hoffers htrails, by rw [hwork, hconsume]⟩

end Keeps

theorem Reaches.exists_keeps (hreaches : Reaches start reading added)
    (hstart : ∃ cursor, start.Keeps first history cursor) :
    ∃ cursor, reading.Keeps first (history ++ added) cursor := by
  induction hreaches with
  | refl =>
    rw [List.append_nil]
    exact hstart
  | log _ now action hnow hfits hspares ih =>
    obtain ⟨cursor, hkeeps⟩ := ih
    rw [← List.append_assoc]
    exact hkeeps.log_step hnow hfits hspares
  | next _ limit hlimit ih =>
    obtain ⟨cursor, hkeeps⟩ := ih
    exact hkeeps.next_step hlimit
  | consume _ ih =>
    obtain ⟨cursor, hkeeps⟩ := ih
    exact hkeeps.consume_step

/-- Whatever was done with a log since it was opened, a reader can be registered wherever the log
    still is, and reads exactly what the log has from there on. -/
theorem reads_exactly {topic : String} {dir : Directory} {opened stored : StoredLog}
    (hdir : dir.Sound) (hopen : StoredLog.ofDirectory topic dir = .ok opened)
    (hcontiguous : opened.Contiguous) (hbounded : opened.Bounded)
    (hstored : StoredLog.Reaches opened stored)
    (hholds : stored.Holds stored.log.firstOffset history) (name : String) {first : Nat}
    (hfirst : stored.log.firstOffset ≤ first) (hlast : first ≤ stored.log.maxOffset) :
    ∃ id log, stored.log.addReader name first = .ok (id, log) ∧
      ∀ reading added, Reaches { stored := { stored with log }, reader := id } reading added →
        ∃ cursor, reading.Exact first (history ++ added) cursor := by
  obtain ⟨parts, hparts⟩ := StoredLog.Laid.of_open hdir hopen hcontiguous hbounded
  obtain ⟨others, hlaid, -⟩ := hstored.laid hparts
  have hfresh : opened.log.Numbered := by
    have hself := hparts.ofDirectory_eq topic
    rw [(StoredLog.topic_of_ofDirectory hopen).2, hopen, Except.ok.injEq] at hself
    rw [hself]
    exact nofun
  have hnumbered := hstored.numbered hparts hfresh
  obtain ⟨-, hlength, hbytes⟩ := hholds
  have hcontents := Except.ok.inj (hlaid.bytes_eq.symm.trans hbytes)
  have hkeeps : stored.Keeps history := ⟨hlength.symm, others, hlaid, hcontents⟩
  obtain ⟨placed, hplace⟩ := Cursor.exists_place hfirst hlast
  have hadd : stored.log.addReader name first = .ok (stored.log.nextReader, { stored.log with
      readers := stored.log.readers ++ [⟨stored.log.nextReader, name, placed⟩]
      nextReader := stored.log.nextReader + 1 }) := by
    simp only [TopicLog.addReader, hplace, bind, Except.bind]
  refine ⟨_, _, hadd, fun reading added hreaches => ?_⟩
  obtain ⟨htrails, hoffset⟩ := Cursor.Trails.of_place hplace
  have hfound := TopicLog.cursorOf?_nextReader hnumbered name placed
  have hstart : Keeps ⟨{ stored with log := { stored.log with
      readers := stored.log.readers ++ [⟨stored.log.nextReader, name, placed⟩]
      nextReader := stored.log.nextReader + 1 } }, stored.log.nextReader, none, []⟩ first history
      placed := by
    refine ⟨hkeeps.of_log_eq rfl rfl rfl, ⟨hfound, htrails.congr rfl rfl⟩, hoffset.ge, ?_, by simp⟩
    rw [hoffset, List.drop_take, Nat.sub_self, List.take_zero]
  obtain ⟨cursor, hcursor⟩ := hreaches.exists_keeps ⟨placed, hstart⟩
  exact ⟨cursor, hcursor.exact⟩

/-- A reader that takes a region, then reads it and another one when the log has rolled. -/
theorem reads_across_roll :
    let opened : StoredLog := ⟨{ topic := "t" }, {}⟩
    let stored := opened.perform ⟨0, 0⟩ (.append [1, 2] 1)
    ∃ id log, stored.log.addReader "r" 1 = .ok (id, log) ∧
      let taken := next { stored := { stored with log }, reader := id } 5
      let rolled := { taken with stored := taken.stored.perform ⟨0, 0⟩ (.append [3] 1) }
      ∃ cursor, (rolled.consume.next 5).consume.Exact 1 [1, 2, 3] cursor := by
  intro opened stored
  have hdir : opened.dir.Sound :=
    ⟨Or.inl rfl, List.Pairwise.nil, fun _ _ _ => List.not_mem_nil, List.Pairwise.nil,
      fun _ hentry => absurd hentry List.not_mem_nil⟩
  have hcontiguous : opened.Contiguous := ⟨List.Pairwise.nil, List.IsChain.nil⟩
  have hopen : StoredLog.ofDirectory "t" opened.dir = .ok opened := rfl
  have hstored : StoredLog.Reaches opened stored :=
    .step .refl ⟨0, 0⟩ (.append [1, 2] 1) (by decide) (by unfold StoredLog.Fits; decide)
  have hholds : stored.Holds stored.log.firstOffset [1, 2] :=
    ⟨rfl, by decide +kernel, by decide +kernel⟩
  have hfirst : stored.log.firstOffset ≤ 1 := by decide +kernel
  have hlast : 1 ≤ stored.log.maxOffset := by decide +kernel
  obtain ⟨id, log, hadd, hreads⟩ :=
    reads_exactly hdir hopen hcontiguous (StoredLog.bounded_of_nil rfl) hstored hholds "r" hfirst
      hlast
  refine ⟨id, log, hadd, ?_⟩
  let start : Reading := { stored := { stored with log }, reader := id }
  have htaken : Reaches start (start.next 5) [] := .next .refl 5 (by decide)
  obtain ⟨cursor, hexact⟩ := hreads _ _ htaken
  have hfits : (start.next 5).stored.Fits (.append [3] 1) := by
    obtain ⟨-, hend, -⟩ := hexact.holds
    change _ + 1 ≤ Decimal.maxValue
    rw [hend]
    decide
  exact hreads _ _ ((htaken.log ⟨0, 0⟩ (.append [3] 1) (by decide) hfits trivial).consume.next 5
    (by decide)).consume

end Reading

end ReplicatedLog
