import ReplicatedLog.Proofs.Log.Reading
import ReplicatedLog.Replication.Producer

namespace ReplicatedLog.StoredLog

/-- The bytes of the segments, back to back. -/
def bytes (stored : StoredLog) : Except IoFault Bytes := do
  let files ← stored.log.segments.mapM fun segment => stored.dir.file segment.name
  .ok (files.flatMap (·.bytes))

/-- The log ends where `history` does, and from its first offset on it lies on disk. -/
def Keeps (stored : StoredLog) (history : Bytes) : Prop :=
  history.length = stored.log.maxOffset ∧ ∃ parts, stored.Laid parts ∧
    Part.contents parts = history.drop stored.log.firstOffset

/-- The log ends where `history` does, and has the bytes of it from `first` on. -/
def Holds (stored : StoredLog) (first : Nat) (history : Bytes) : Prop :=
  stored.log.firstOffset = first ∧ stored.log.maxOffset = history.length ∧
    stored.bytes = .ok (history.drop first)

variable {stored after : StoredLog} {parts : List Part} {history data : Bytes} {now : Instant}

/-- The bytes of a log are those of the files that its segments name. -/
theorem bytes_of_parts (hsegments : stored.log.segments = parts.map (·.segment))
    (hfiles : ∀ part ∈ parts, stored.dir.file part.segment.name = .ok part.file) :
    stored.bytes = .ok (Part.contents parts) := by
  have hread : stored.log.segments.mapM (fun segment => stored.dir.file segment.name) =
      .ok (parts.map (·.file)) := by
    rw [hsegments]
    clear hsegments
    induction parts with
    | nil => rfl
    | cons part rest ih =>
      have hrest := ih fun part hpart => hfiles part (List.mem_cons_of_mem _ hpart)
      simp [List.mapM_cons, hfiles part List.mem_cons_self, hrest, bind, Except.bind, pure,
        Except.pure]
  simp [bytes, hread, bind, Except.bind, Part.contents, List.flatMap_map]

theorem Laid.bytes_eq (hlaid : stored.Laid parts) :
    stored.bytes = .ok (Part.contents parts) :=
  bytes_of_parts hlaid.segments fun part hpart =>
    hlaid.sound.file_of_mem (hlaid.named part hpart) (hlaid.mem_files hpart)

namespace Keeps

theorem bytes_eq (hkeeps : stored.Keeps history) :
    stored.bytes = .ok (history.drop stored.log.firstOffset) := by
  obtain ⟨-, parts, hlaid, hcontents⟩ := hkeeps
  rw [hlaid.bytes_eq, hcontents]

theorem holds (hkeeps : stored.Keeps history) : stored.Holds stored.log.firstOffset history :=
  ⟨rfl, hkeeps.1.symm, hkeeps.bytes_eq⟩

/-- History does not depend on the readers of a log. -/
theorem of_log_eq (hkeeps : stored.Keeps history) {log : TopicLog}
    (hsegments : log.segments = stored.log.segments)
    (hmax : log.maxOffset = stored.log.maxOffset) (hactive : log.active = stored.log.active) :
    Keeps { stored with log } history := by
  obtain ⟨hlength, parts, hlaid, hcontents⟩ := hkeeps
  have hfirst : log.firstOffset = stored.log.firstOffset := by
    unfold TopicLog.firstOffset
    rw [hsegments, hmax]
  exact ⟨hlength.trans hmax.symm, parts, hlaid.of_log_eq hsegments hmax hactive,
    hcontents.trans (by rw [hfirst])⟩

theorem firstOffset_le (hkeeps : stored.Keeps history) :
    stored.log.firstOffset ≤ history.length := by
  obtain ⟨hlength, parts, hlaid, -⟩ := hkeeps
  exact hlength ▸ hlaid.chained.start_le_stop

theorem drop_append (hkeeps : stored.Keeps history) (data : Bytes) :
    (history ++ data).drop stored.log.firstOffset =
      history.drop stored.log.firstOffset ++ data := by
  rw [List.drop_append_of_le_length hkeeps.firstOffset_le]

theorem contents_eq (hkeeps : stored.Keeps history) (hlaid : stored.Laid parts) :
    Part.contents parts = history.drop stored.log.firstOffset := by
  obtain ⟨-, others, hothers, hcontents⟩ := hkeeps
  exact (Except.ok.inj (hlaid.bytes_eq.symm.trans hothers.bytes_eq)).trans hcontents

/-- Bytes behind the last ones make history longer. -/
theorem of_grown (hkeeps : stored.Keeps history) (hlaid : stored.Laid parts) {grown : List Part}
    (hafter : after.Laid grown) (hcontents : Part.contents grown = Part.contents parts ++ data)
    (hgrown : stored.log.Grown data.length after.log) : after.Keeps (history ++ data) := by
  refine ⟨?_, grown, hafter, ?_⟩
  · rw [List.length_append, hkeeps.1, hgrown.maxOffset_eq]
  · rw [hcontents, hkeeps.contents_eq hlaid, hgrown.firstOffset_eq, hkeeps.drop_append]

/-- A segment that starts at the end of history changes nothing about it. -/
theorem of_widened (hkeeps : stored.Keeps history) (hlaid : stored.Laid parts) {wide : List Part}
    (hafter : after.Laid wide) (hcontents : Part.contents wide = Part.contents parts)
    (hwide : stored.log.Widened after.log) : after.Keeps history := by
  refine ⟨hkeeps.1.trans hwide.maxOffset_eq.symm, wide, hafter, ?_⟩
  rw [hcontents, hkeeps.contents_eq hlaid, hwide.firstOffset_eq]

/-- An append succeeds and makes history longer. -/
theorem append (hkeeps : stored.Keeps history) (data : Bytes) (rollSize : Nat)
    (hnow : now.InCalendar) (hfits : (history ++ data).length ≤ Decimal.maxValue) :
    ∃ after, stored.append data rollSize now = (.ok (history ++ data).length, after) ∧
      after.Keeps (history ++ data) ∧ stored.log.Grown data.length after.log ∧
      stored.dir.nextId ≤ after.dir.nextId := by
  obtain ⟨hlength, parts, hlaid, -⟩ := id hkeeps
  rw [List.length_append, hlength] at hfits ⊢
  obtain ⟨after, grown, happend, hafter, hcontents, hgrown, hid⟩ :=
    hlaid.append_spec data rollSize hnow hfits
  exact ⟨after, happend, hkeeps.of_grown hlaid hafter hcontents hgrown, hgrown, hid⟩

/-- Bytes claimed for the end of history are added to it. -/
theorem appendAt (hkeeps : stored.Keeps history) (data : Bytes) (rollSize : Nat)
    (hnow : now.InCalendar) (hfits : (history ++ data).length ≤ Decimal.maxValue) :
    ∃ after, stored.appendAt history.length data rollSize now =
        (.ok (.appended (history ++ data).length), after) ∧
      after.Keeps (history ++ data) ∧
      (data = [] ∧ after = stored ∨ stored.log.Grown data.length after.log) ∧
      stored.dir.nextId ≤ after.dir.nextId := by
  obtain ⟨hlength, parts, hlaid, -⟩ := id hkeeps
  rw [List.length_append, hlength] at hfits ⊢
  obtain ⟨after, grown, happend, hafter, hcontents, hmore, hid⟩ :=
    hlaid.appendAt_maxOffset data rollSize hnow hfits
  refine ⟨after, happend, ?_, hmore, hid⟩
  rcases hmore with ⟨rfl, rfl⟩ | hgrown
  · rw [List.append_nil]
    exact hkeeps
  · exact hkeeps.of_grown hlaid hafter hcontents hgrown

/-- A cleanup changes nothing about history. -/
theorem of_kept (hkeeps : stored.Keeps history) {gate : Nat} {parts : List Part}
    (hlaid : stored.Laid parts) (hkept : stored.Kept parts gate after) : after.Keeps history := by
  obtain ⟨kept, dropped, hafter, hsplit, hfirst⟩ := hkept.laid
  refine ⟨hkeeps.1.trans hkept.cleaned.maxOffset_eq.symm, kept, hafter, ?_⟩
  rw [hkeeps.contents_eq hlaid] at hsplit
  rw [hfirst, ← List.drop_drop, hsplit, List.drop_left]

theorem cleanup (hkeeps : stored.Keeps history) (retain : Nat) (now : Instant) :
    (stored.cleanup retain now).2.Keeps history ∧
      stored.log.Cleaned stored.log.gate (stored.cleanup retain now).2.log ∧
      (stored.cleanup retain now).2.dir.nextId = stored.dir.nextId := by
  obtain ⟨parts, hlaid, -⟩ := hkeeps.2
  have hkept := hlaid.cleanup_spec retain now
  exact ⟨hkeeps.of_kept hlaid hkept, hkept.cleaned, hkept.nextId⟩

theorem cleanupAll (hkeeps : stored.Keeps history) (retain external : Nat) (now : Instant) :
    (stored.cleanupAll retain external now).2.Keeps history ∧
      stored.log.Cleaned (min stored.log.gate external)
        (stored.cleanupAll retain external now).2.log ∧
      (stored.cleanupAll retain external now).2.dir.nextId = stored.dir.nextId := by
  obtain ⟨parts, hlaid, -⟩ := hkeeps.2
  have hkept := hlaid.cleanupAll_spec retain external now
  exact ⟨hkeeps.of_kept hlaid hkept, hkept.cleaned, hkept.nextId⟩

/-- Who opens the directory again finds the same history, unless nothing but its length is left. -/
theorem ofDirectory (hkeeps : stored.Keeps history) (hnone : stored.log.segments = [] → history = [])
    (topic : String) :
    ∃ second, StoredLog.ofDirectory topic stored.dir = .ok second ∧ second.Keeps history ∧
      second.log.topic = topic ∧ second.log.segments = stored.log.segments ∧
      second.log.firstOffset = stored.log.firstOffset := by
  obtain ⟨hlength, parts, hlaid, hcontents⟩ := hkeeps
  have hmax : (if stored.log.segments = [] then 0 else stored.log.maxOffset) =
      stored.log.maxOffset := by
    by_cases hempty : stored.log.segments = []
    · rw [if_pos hempty, ← hlength, hnone hempty, List.length_nil]
    · exact if_neg hempty
  have hopen := hlaid.ofDirectory_eq topic
  rw [hmax] at hopen
  refine ⟨_, hopen, ⟨hlength, parts, ?_, hcontents⟩, rfl, rfl, rfl⟩
  exact ⟨hlaid.sound, hlaid.files, hlaid.segments, hlaid.named, hlaid.chained, hlaid.bounded,
    fun opened hopened => by cases hopened⟩

theorem ordered (hkeeps : stored.Keeps history) : stored.log.Ordered := by
  obtain ⟨-, parts, hlaid, -⟩ := hkeeps
  exact hlaid.ordered

/-- The bytes of a region are those of history at its offset. -/
theorem readRegion_eq (hkeeps : stored.Keeps history) {region : Region}
    (hregion : region.Within stored.log) :
    stored.dir.readRegion region = .ok ((history.drop region.offset).take region.length) ∧
      region.offset + region.length ≤ history.length := by
  obtain ⟨hlength, parts, hlaid, hcontents⟩ := hkeeps
  obtain ⟨⟨passed, rest, hsegments, hend⟩, hposition⟩ := hregion
  have hstop := Cursor.segmentEnd_le hlaid.ordered hsegments
  refine ⟨?_, by omega⟩
  obtain ⟨front, part, back, rfl, hpart, rfl, rfl⟩ := hlaid.exists_split hsegments
  have hmem : part ∈ front ++ part :: back := by simp
  have hfile : stored.dir.file region.segment.name = .ok part.file :=
    hpart ▸ hlaid.sound.file_of_mem (hlaid.named part hmem) (hlaid.mem_files hmem)
  have hstart := hlaid.chained.offset_of_split
  rw [← hpart, hlaid.chained.segmentEnd_eq] at hend
  rw [← hpart] at hposition
  have hdata : (history.drop region.offset).take region.length =
      (part.file.bytes.drop region.position).take region.length := by
    have hoffset : region.offset =
        stored.log.firstOffset + ((Part.contents front).length + region.position) := by omega
    rw [hoffset, ← List.drop_drop, ← hcontents, Part.contents_append, Part.contents_cons,
      List.drop_length_add_append, List.drop_append_of_le_length (by omega),
      List.take_append_of_le_length (by rw [List.length_drop]; omega)]
  have hlong : region.length ≤ part.file.bytes.length - region.position := by omega
  rw [hdata]
  simp [Directory.readRegion, hfile, hlong, bind, Except.bind]

end Keeps

end ReplicatedLog.StoredLog
