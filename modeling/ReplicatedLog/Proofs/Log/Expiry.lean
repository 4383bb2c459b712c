import Mathlib.Order.Bounds.Basic
import ReplicatedLog.Proofs.Log.Consumption

namespace ReplicatedLog

/-- The first `count` segments may go: each has a successor that starts at or before `gate`, and
    was created at least `retain` ago. -/
def Disposable (retain gate : Nat) (now : Instant) (segments : List Segment) (count : Nat) : Prop :=
  ∀ index < count, ∃ oldest next created,
    segments[index]? = some oldest ∧ segments[index + 1]? = some next ∧ next.offset ≤ gate ∧
      oldest.created = .ok created ∧ retain ≤ now.age created

namespace Disposable

variable {retain gate count : Nat} {now : Instant} {oldest next : Segment} {rest : List Segment}
  {segments : List Segment}

theorem zero (retain gate : Nat) (now : Instant) (segments : List Segment) :
    Disposable retain gate now segments 0 :=
  fun _ hindex => absurd hindex (Nat.not_lt_zero _)

/-- The last segment stays. -/
theorem lt_length (hcount : Disposable retain gate now segments count) (hsome : segments ≠ []) :
    count < segments.length := by
  cases count with
  | zero => exact List.length_pos_iff.mpr hsome
  | succ count =>
    obtain ⟨_, next, _, _, hnext, -⟩ := hcount count (Nat.lt_succ_self _)
    exact (List.getElem?_eq_some_iff.mp hnext).1

theorem drop_ne_nil (hcount : Disposable retain gate now segments count) (hsome : segments ≠ []) :
    segments.drop count ≠ [] := by
  have hlt := hcount.lt_length hsome
  rw [Ne, List.drop_eq_nil_iff]
  omega

/-- If one segment may go, the oldest one may. -/
theorem oldest_of_ne_zero (hcount : Disposable retain gate now (oldest :: next :: rest) count)
    (hsome : count ≠ 0) :
    next.offset ≤ gate ∧ ∃ created, oldest.created = .ok created ∧
      retain ≤ now.age created := by
  obtain ⟨first, second, created, hfirst, hsecond, hgate, hcreated, hold⟩ :=
    hcount 0 (Nat.pos_of_ne_zero hsome)
  obtain rfl : oldest = first := Option.some.inj hfirst
  obtain rfl : next = second := Option.some.inj hsecond
  exact ⟨hgate, created, hcreated, hold⟩

theorem tail (hcount : Disposable retain gate now (oldest :: rest) (count + 1)) :
    Disposable retain gate now rest count := by
  intro index hindex
  simpa using hcount (index + 1) (Nat.succ_lt_succ hindex)

theorem cons {created : Instant} (hcount : Disposable retain gate now (next :: rest) count)
    (hgate : next.offset ≤ gate) (hcreated : oldest.created = .ok created)
    (hold : retain ≤ now.age created) :
    Disposable retain gate now (oldest :: next :: rest) (count + 1) := by
  intro index hindex
  cases index with
  | zero => exact ⟨oldest, next, created, rfl, rfl, hgate, hcreated, hold⟩
  | succ index => simpa using hcount index (Nat.lt_of_succ_lt_succ hindex)

/-- Nothing behind the gate may go. -/
theorem firstOffset_le {log : TopicLog}
    (hcount : Disposable retain gate now log.segments count) :
    TopicLog.firstOffset { log with segments := log.segments.drop count } ≤
      max log.firstOffset gate := by
  cases count with
  | zero => exact le_max_left _ _
  | succ count =>
    obtain ⟨_, next, _, _, hnext, hgate, -⟩ := hcount count (Nat.lt_succ_self _)
    unfold TopicLog.firstOffset
    rw [List.head?_drop, hnext]
    exact hgate.trans (le_max_right _ _)

/-- Where the oldest segment has to stay, all have to. -/
theorem isGreatest_zero
    (hstays : ∀ count, Disposable retain gate now segments count → count = 0) :
    IsGreatest {count | Disposable retain gate now segments count} 0 :=
  ⟨zero retain gate now segments, fun count hcount => (hstays count hcount).le⟩

theorem isGreatest_cons {created : Instant} (hgate : next.offset ≤ gate)
    (hcreated : oldest.created = .ok created) (hold : retain ≤ now.age created)
    (hgreatest : IsGreatest {count | Disposable retain gate now (next :: rest) count} count) :
    IsGreatest {count | Disposable retain gate now (oldest :: next :: rest) count} (count + 1) := by
  refine ⟨hgreatest.1.cons hgate hcreated hold, fun other hother => ?_⟩
  cases other with
  | zero => exact Nat.zero_le _
  | succ other => exact Nat.succ_le_succ (hgreatest.2 hother.tail)

end Disposable

/-- The items without those under the names of `gone` segments. -/
def Items.without (gone : List Segment) (items : Items) : Items :=
  items.filter fun entry => entry.1 ∉ gone.map (·.name)

theorem Items.without_cons (oldest : Segment) (gone : List Segment) (items : Items) :
    items.without (oldest :: gone) = (items.erase oldest.name).without gone := by
  simp only [without, erase, List.filter_filter, List.map_cons, List.mem_cons, not_or]
  refine List.filter_congr fun entry _ => ?_
  simp [Bool.and_comm]

namespace StoredLog

/-- The loop over the sealed segments deletes as many of them as may go. -/
theorem dropSealed_spec (retain gate : Nat) (now : Instant) {segments : List Segment}
    {dir : Directory} (hfolder : dir.place = .folder dir.entries)
    (hnamed : ∀ segment ∈ segments, SegmentName.offset segment.name = .ok segment.offset)
    (hdated : ∀ segment ∈ segments, ∃ created, segment.created = .ok created)
    (hfiles : ∀ segment ∈ segments, (segment.name, .folder) ∉ dir.entries) :
    ∃ count, IsGreatest {count | Disposable retain gate now segments count} count ∧
      dropSealed retain gate now segments dir =
        (.ok (), segments.drop count, dir.setItems (dir.entries.without (segments.take count))) := by
  -- a loop that stops at once has changed nothing
  have hstop : ∀ dir : Directory, dir.place = .folder dir.entries →
      dir.setItems (dir.entries.without []) = dir := by
    intro dir hfolder
    have hall : dir.entries.without [] = dir.entries := List.filter_eq_self.mpr (by simp)
    rw [hall, Directory.setItems, ← hfolder]
  fun_induction dropSealed retain gate now segments dir with
  | case1 oldest next rest dir kept hgate =>
    refine ⟨0, Disposable.isGreatest_zero fun count hcount => ?_, ?_⟩
    · by_contra hsome
      have hle := (hcount.oldest_of_ne_zero hsome).1
      omega
    · rw [List.take_zero, hstop dir hfolder, List.drop_zero]
  | case2 oldest next rest dir kept hgate fault hcreated =>
    obtain ⟨created, hvalid⟩ := hdated oldest List.mem_cons_self
    cases hvalid.symm.trans hcreated
  | case3 oldest next rest dir kept hgate created hcreated hyoung =>
    refine ⟨0, Disposable.isGreatest_zero fun count hcount => ?_, ?_⟩
    · by_contra hsome
      obtain ⟨-, other, hother, hold⟩ := hcount.oldest_of_ne_zero hsome
      obtain rfl : created = other := Except.ok.inj (hcreated.symm.trans hother)
      omega
    · rw [List.take_zero, hstop dir hfolder, List.drop_zero]
  | case4 oldest next rest dir kept hgate created hcreated hold fault hdiscard =>
    have hdone := Directory.discard_of_folder hfolder (hnamed oldest List.mem_cons_self)
      (hfiles oldest List.mem_cons_self)
    cases hdone.symm.trans hdiscard
  | case5 oldest next rest dir hgate created hcreated hold left hdiscard ih =>
    have hdone := Directory.discard_of_folder hfolder (hnamed oldest List.mem_cons_self)
      (hfiles oldest List.mem_cons_self)
    obtain rfl : dir.setItems (dir.entries.erase oldest.name) = left :=
      Except.ok.inj (hdone.symm.trans hdiscard)
    obtain ⟨count, hgreatest, hdrop⟩ := ih rfl
      (fun segment hmem => hnamed segment (List.mem_cons_of_mem _ hmem))
      (fun segment hmem => hdated segment (List.mem_cons_of_mem _ hmem))
      (fun segment hmem hfolder' => hfiles segment (List.mem_cons_of_mem _ hmem)
        (List.mem_of_mem_filter hfolder'))
    refine ⟨count + 1, ?_, ?_⟩
    · exact Disposable.isGreatest_cons (not_lt.mp hgate) hcreated (not_lt.mp hold) hgreatest
    · rw [hdrop, List.take_succ_cons, Items.without_cons, List.drop_succ_cons]
      rfl
  | case6 segments dir hshort =>
    refine ⟨0, Disposable.isGreatest_zero fun count hcount => ?_, ?_⟩
    · cases segments with
      | nil =>
        by_contra hsome
        obtain ⟨_, _, _, hnone, -⟩ := hcount 0 (Nat.pos_of_ne_zero hsome)
        cases hnone
      | cons only rest =>
        cases rest with
        | nil => exact Nat.lt_one_iff.mp (hcount.lt_length (List.cons_ne_nil _ _))
        | cons next rest => exact absurd rfl (hshort only next rest)
    · rw [List.take_zero, hstop dir hfolder, List.drop_zero]

/-- The directory of a log without segments can be removed. -/
theorem removeDirectory_of_entries {stored : StoredLog}
    (husable : stored.dir.place = .missing ∨ stored.dir.place = .folder stored.dir.entries)
    (hempty : stored.dir.entries = []) :
    ∃ dir, stored.removeDirectory = (.ok true, { stored with dir }) ∧ dir.place = .missing := by
  rcases husable with hmissing | hfolder
  · refine ⟨stored.dir, ?_, hmissing⟩
    simp [removeDirectory, Directory.discardEmpty, Directory.items_of_missing hmissing,
      Directory.absent, bind, Except.bind]
  · refine ⟨{ stored.dir with place := .missing }, ?_, rfl⟩
    simp [removeDirectory, Directory.discardEmpty, Directory.items_of_folder hfolder, hempty,
      Directory.absent, bind, Except.bind]

/-- A log whose segments start one behind the other and whose readers stand within it. Its
    directory holds no more than the files of its segments, and the last one for certain. -/
structure Tidy (stored : StoredLog) : Prop where
  ascending : stored.log.segments.Pairwise fun earlier later => earlier.offset < later.offset
  named : ∀ segment ∈ stored.log.segments, SegmentName.offset segment.name = .ok segment.offset
  dated : ∀ segment ∈ stored.log.segments, ∃ created, segment.created = .ok created
  readers : ∀ reader ∈ stored.log.readers, stored.log.firstOffset ≤ reader.cursor.offset ∧
    reader.cursor.offset ≤ stored.log.maxOffset
  usable : stored.dir.place = .missing ∨ stored.dir.place = .folder stored.dir.entries
  sorted : stored.dir.entries.Ascending
  known : ∀ name item, (name, item) ∈ stored.dir.entries →
    (∃ file, item = .file file) ∧ ∃ segment ∈ stored.log.segments, segment.name = name
  last : ∀ last, stored.log.segments.getLast? = some last →
    ∃ file, (last.name, file) ∈ stored.dir.files

/-- The last segment may go as well: it is then the only one left, the log ends at or before `gate`,
    and its file was last changed at least `retain` ago. -/
def LastDisposable (stored : StoredLog) (retain gate : Nat) (now : Instant) (count : Nat) : Prop :=
  ∃ last file, stored.log.segments.drop count = [last] ∧ stored.log.maxOffset ≤ gate ∧
    (last.name, file) ∈ stored.dir.files ∧ retain ≤ now.nanosSince file.modified

/-- What a cleanup makes of a log of which it deletes the segments `gone`: nothing but these is
    lost, and every reader can be placed again where it stands. -/
structure Pruned (stored : StoredLog) (gone kept : List Segment) (after : StoredLog) : Prop where
  segments : stored.log.segments = gone ++ kept
  log : after.log = { stored.log with segments := kept, active := after.log.active }
  entries : after.dir.entries = stored.dir.entries.without gone
  removed : kept = [] → after.dir.place = .missing
  placed : ∀ reader ∈ stored.log.readers, ∃ cursor,
    Cursor.place kept stored.log.maxOffset reader.cursor.offset = .ok cursor

namespace Tidy

variable {stored after : StoredLog} {retain gate count : Nat} {now : Instant}

theorem folder (htidy : stored.Tidy) (hsome : stored.log.segments ≠ []) :
    stored.dir.place = .folder stored.dir.entries := by
  obtain ⟨file, hfile⟩ := htidy.last _ (List.getLast?_eq_some_getLast hsome)
  exact Directory.place_of_mem_files hfile

theorem entries_of_nil (htidy : stored.Tidy) (hnone : stored.log.segments = []) :
    stored.dir.entries = [] := by
  refine List.eq_nil_iff_forall_not_mem.mpr fun entry hentry => ?_
  obtain ⟨-, segment, hsegment, -⟩ := htidy.known entry.1 entry.2 hentry
  rw [hnone] at hsegment
  cases hsegment

/-- Without its segments' files the directory is empty. -/
theorem without_all (htidy : stored.Tidy) :
    stored.dir.entries.without stored.log.segments = [] := by
  refine List.filter_eq_nil_iff.mpr fun entry hentry => ?_
  obtain ⟨-, segment, hsegment, hname⟩ := htidy.known entry.1 entry.2 hentry
  have hmem : entry.1 ∈ stored.log.segments.map (·.name) :=
    hname ▸ List.mem_map_of_mem (f := (·.name)) hsegment
  simpa using hmem

/-- No two segments have one name. -/
theorem name_notMem (htidy : stored.Tidy) {gone kept : List Segment}
    (hsplit : stored.log.segments = gone ++ kept) {segment : Segment} (hkept : segment ∈ kept) :
    segment.name ∉ gone.map (·.name) := by
  intro hmem
  obtain ⟨lost, hlost, hname⟩ := List.mem_map.mp hmem
  have hlt := (List.pairwise_append.mp (hsplit ▸ htidy.ascending)).2.2 lost hlost segment hkept
  have hoffset : lost.offset = segment.offset := by
    have hfirst := htidy.named lost (by rw [hsplit]; exact List.mem_append_left _ hlost)
    have hsecond := htidy.named segment (by rw [hsplit]; exact List.mem_append_right _ hkept)
    exact Except.ok.inj (hfirst.symm.trans ((congrArg _ hname).trans hsecond))
  omega

/-- Every reader stands behind what was deleted. -/
theorem placed (htidy : stored.Tidy) (hgate : gate ≤ stored.log.gate) {kept : List Segment}
    (hkept : TopicLog.firstOffset { stored.log with segments := kept } ≤
      max stored.log.firstOffset gate) :
    ∀ reader ∈ stored.log.readers, ∃ cursor,
      Cursor.place kept stored.log.maxOffset reader.cursor.offset = .ok cursor := by
  intro reader hreader
  obtain ⟨hfirst, hlast⟩ := htidy.readers reader hreader
  have hneeded := TopicLog.gate_le_of_mem hreader
  have hbehind := hkept.trans (max_le hfirst (hgate.trans hneeded))
  exact Cursor.exists_place hbehind hlast

/-- Without segments there is only the directory to remove. -/
theorem removeDirectory_pruned (htidy : stored.Tidy) (hnone : stored.log.segments = []) :
    ∃ after, stored.removeDirectory = (.ok true, after) ∧ stored.Pruned [] [] after := by
  have hempty := htidy.entries_of_nil hnone
  obtain ⟨dir, hremove, hmissing⟩ := removeDirectory_of_entries htidy.usable hempty
  refine ⟨_, hremove, hnone, ?_, ?_, fun _ => hmissing, ?_⟩
  · rw [← hnone]
  · rw [Directory.entries_of_missing hmissing, hempty]
    rfl
  · refine htidy.placed le_rfl ?_
    rw [← hnone]
    exact le_max_left _ _

/-- The segments that may go are deleted, and with them nothing else. -/
theorem cleanupSealed_pruned (htidy : stored.Tidy) (hsome : stored.log.segments ≠ [])
    (hgate : gate ≤ stored.log.gate) (retain : Nat) (now : Instant) :
    ∃ count after,
      IsGreatest {count | Disposable retain gate now stored.log.segments count} count ∧
      stored.cleanupSealed retain gate now = (.ok (), after) ∧
      after.dir.place = .folder after.dir.entries ∧ after.log.active = stored.log.active ∧
      stored.Pruned (stored.log.segments.take count) (stored.log.segments.drop count) after := by
  have hfolder := htidy.folder hsome
  have hfiles : ∀ segment ∈ stored.log.segments, (segment.name, .folder) ∉ stored.dir.entries := by
    intro segment _ hmem
    obtain ⟨⟨file, hfile⟩, -⟩ := htidy.known _ _ hmem
    cases hfile
  obtain ⟨count, hgreatest, hdrop⟩ :=
    dropSealed_spec retain gate now hfolder htidy.named htidy.dated hfiles
  refine ⟨count, ⟨{ stored.log with segments := stored.log.segments.drop count },
    stored.dir.setItems (stored.dir.entries.without (stored.log.segments.take count))⟩,
    hgreatest, ?_, rfl, rfl, ?_⟩
  · rw [cleanupSealed, hdrop]
  · refine ⟨(List.take_append_drop _ _).symm, rfl, rfl, ?_, ?_⟩
    · exact fun hnone => absurd hnone (hgreatest.1.drop_ne_nil hsome)
    · exact htidy.placed hgate hgreatest.1.firstOffset_le

/-- What is left of the directory still has the file of the last segment. -/
theorem file_of_last (htidy : stored.Tidy) {gone : List Segment} {last : Segment}
    (hpruned : stored.Pruned gone [last] after) {file : File}
    (hfile : (last.name, file) ∈ stored.dir.files) : after.dir.file last.name = .ok file := by
  have hname := htidy.named last (by rw [hpruned.segments]; simp)
  have hsplit := hpruned.segments
  refine Directory.file_of_mem_files ?_ hname ?_
  · rw [hpruned.entries]
    exact List.Pairwise.filter _ htidy.sorted
  · refine Items.mem_files.mpr ?_
    rw [hpruned.entries]
    refine List.mem_filter.mpr ⟨Items.mem_files.mp hfile, ?_⟩
    simpa using htidy.name_notMem hsplit List.mem_cons_self

/-- An old last segment goes with the directory. -/
theorem dropLast_pruned (htidy : stored.Tidy) {gone : List Segment} {last : Segment}
    (hpruned : stored.Pruned gone [last] after) (hfolder : after.dir.place = .folder after.dir.entries)
    {file : File} (hfile : (last.name, file) ∈ stored.dir.files)
    (hold : retain ≤ now.nanosSince file.modified) (hgate : stored.log.maxOffset ≤ gate)
    (hneeded : gate ≤ stored.log.gate) :
    ∃ final, after.dropLast last retain now = (.ok true, final) ∧
      stored.Pruned stored.log.segments [] final := by
  have hname := htidy.named last (by rw [hpruned.segments]; simp)
  have hnofolder : (last.name, .folder) ∉ after.dir.entries := by
    intro hmem
    rw [hpruned.entries] at hmem
    obtain ⟨⟨_, hfile⟩, -⟩ := htidy.known _ _ (List.mem_of_mem_filter hmem)
    cases hfile
  have hdiscard := Directory.discard_of_folder hfolder hname hnofolder
  have hempty : after.dir.entries.erase last.name = [] := by
    have hall := htidy.without_all
    rw [hpruned.segments] at hall
    rw [hpruned.entries, Items.erase, Items.without, List.filter_filter]
    rw [Items.without] at hall
    rw [← hall]
    refine List.filter_congr fun entry _ => ?_
    simp [Bool.and_comm]
  let emptied : StoredLog := ⟨{ after.log with segments := [], active := none },
    after.dir.setItems (after.dir.entries.erase last.name)⟩
  have husable : emptied.dir.place = .missing ∨ emptied.dir.place = .folder emptied.dir.entries :=
    Or.inr rfl
  obtain ⟨dir, hremove, hmissing⟩ := removeDirectory_of_entries husable hempty
  refine ⟨⟨{ after.log with segments := [], active := none }, dir⟩, ?_,
    (List.append_nil _).symm, ?_, ?_, fun _ => hmissing, ?_⟩
  · unfold dropLast
    simp only [htidy.file_of_last hpruned hfile, if_neg (not_lt.mpr hold), hdiscard]
    exact hremove
  · rw [hpruned.log]
  · rw [htidy.without_all, Directory.entries_of_missing hmissing]
  · exact htidy.placed hneeded (le_max_of_le_right hgate)

theorem isGreatest_of_nil (hnone : stored.log.segments = []) (retain gate : Nat) (now : Instant) :
    IsGreatest {count | Disposable retain gate now stored.log.segments count} 0 := by
  refine Disposable.isGreatest_zero fun count hcount => ?_
  by_contra hpositive
  obtain ⟨_, _, _, holdest, -⟩ := hcount 0 (Nat.pos_of_ne_zero hpositive)
  rw [hnone] at holdest
  cases holdest

/-- What the readers have passed goes, but the last segment stays. -/
theorem cleanup_pruned (htidy : stored.Tidy) (retain : Nat) (now : Instant) :
    ∃ count after,
      IsGreatest {count | Disposable retain stored.log.gate now stored.log.segments count} count ∧
      stored.cleanup retain now = (.ok (decide (stored.log.segments = [])), after) ∧
      stored.Pruned (stored.log.segments.take count) (stored.log.segments.drop count) after ∧
      after.log.segments.getLast? = stored.log.segments.getLast? := by
  unfold cleanup
  by_cases hsome : stored.log.segments = []
  · obtain ⟨after, hremove, hpruned⟩ := htidy.removeDirectory_pruned hsome
    refine ⟨0, after, isGreatest_of_nil hsome _ _ _, ?_, ?_, ?_⟩
    · simp [hsome, hremove]
    · simpa [hsome] using hpruned
    · rw [hpruned.log, hsome]
  · obtain ⟨count, after, hgreatest, hclean, -, -, hpruned⟩ :=
      htidy.cleanupSealed_pruned hsome le_rfl retain now
    refine ⟨count, after, hgreatest, ?_, hpruned, ?_⟩
    · simp [hsome, hclean, Except.map]
    · rw [hpruned.log]
      exact List.getLast?_drop.trans (if_neg (not_le.mpr (hgreatest.1.lt_length hsome)))

/-- A last segment that may not go yet is left alone. -/
theorem dropLast_of_not_disposable (htidy : stored.Tidy) {gone : List Segment} {last : Segment}
    (hpruned : stored.Pruned gone [last] after) (hdrop : stored.log.segments.drop count = [last])
    (hgate : stored.log.maxOffset ≤ gate) (hstays : ¬ stored.LastDisposable retain gate now count) :
    after.dropLast last retain now = (.ok false, after) := by
  have hlast : stored.log.segments.getLast? = some last := by
    rw [hpruned.segments, List.getLast?_concat]
  obtain ⟨file, hfile⟩ := htidy.last last hlast
  have hyoung : now.nanosSince file.modified < retain := by
    by_contra hold
    exact hstays ⟨last, file, hdrop, hgate, hfile, not_lt.mp hold⟩
  unfold dropLast
  simp only [htidy.file_of_last hpruned hfile, if_pos hyoung]

/-- With proof that all below `external` is safe elsewhere an old last segment goes too. -/
theorem cleanupAll_pruned (htidy : stored.Tidy) (retain external : Nat) (now : Instant) :
    ∃ count after, IsGreatest {count | Disposable retain (min stored.log.gate external) now
        stored.log.segments count} count ∧
      (stored.cleanupAll retain external now = (.ok true, after) ∧
          (stored.log.segments = [] ∨
            stored.LastDisposable retain (min stored.log.gate external) now count) ∧
          stored.Pruned stored.log.segments [] after ∨
        stored.cleanupAll retain external now = (.ok false, after) ∧
          ¬ (stored.log.segments = [] ∨
            stored.LastDisposable retain (min stored.log.gate external) now count) ∧
          stored.Pruned (stored.log.segments.take count) (stored.log.segments.drop count)
            after) := by
  unfold cleanupAll
  by_cases hsome : stored.log.segments = []
  · obtain ⟨after, hremove, hpruned⟩ := htidy.removeDirectory_pruned hsome
    refine ⟨0, after, isGreatest_of_nil hsome _ _ _, Or.inl ⟨?_, Or.inl hsome, ?_⟩⟩
    · simp [hsome, hremove]
    · simpa [hsome] using hpruned
  · have hneeded : min stored.log.gate external ≤ stored.log.gate := min_le_left _ _
    generalize min stored.log.gate external = gate at hneeded ⊢
    obtain ⟨count, after, hgreatest, hclean, hfolder, -, hpruned⟩ :=
      htidy.cleanupSealed_pruned hsome hneeded retain now
    have hend : after.log.maxOffset = stored.log.maxOffset := by rw [hpruned.log]
    have hkept : after.log.segments = stored.log.segments.drop count := by rw [hpruned.log]
    simp only [List.isEmpty_iff, hsome, if_false, false_or, hclean, hkept, hend]
    by_cases hlast : stored.LastDisposable retain gate now count
    · obtain ⟨last, file, hdrop, hgate, hfile, hold⟩ := hlast
      obtain ⟨final, hfinal, hgone⟩ :=
        htidy.dropLast_pruned (hdrop ▸ hpruned) hfolder hfile hold hgate hneeded
      refine ⟨count, final, hgreatest, Or.inl ⟨?_, ⟨last, file, hdrop, hgate, hfile, hold⟩, hgone⟩⟩
      simp only [hdrop, if_neg (not_lt.mpr hgate), hfinal]
    · refine ⟨count, after, hgreatest, Or.inr ⟨?_, hlast, hpruned⟩⟩
      rcases hdrop : stored.log.segments.drop count with _ | ⟨last, _ | ⟨next, rest⟩⟩
      · rfl
      · by_cases hgate : gate < stored.log.maxOffset
        · simp only [if_pos hgate]
        · have hstays := htidy.dropLast_of_not_disposable (hdrop ▸ hpruned) hdrop (not_lt.mp hgate)
            hlast
          simp only [if_neg hgate, hstays]
      · rfl

/-- What a cleanup deletes: of the sealed segments as many as may go, counted from the front, and
    with proof that all is safe elsewhere also an old last segment. Nothing else is changed, and
    the answer tells whether there is no segment now. -/
theorem cleanups_delete_disposable (htidy : stored.Tidy) (retain external : Nat) (now : Instant) :
    (∃ count after,
      IsGreatest {count | Disposable retain stored.log.gate now stored.log.segments count} count ∧
      stored.cleanup retain now = (.ok (decide (stored.log.segments = [])), after) ∧
      stored.Pruned (stored.log.segments.take count) (stored.log.segments.drop count) after ∧
      after.log.segments.getLast? = stored.log.segments.getLast?) ∧
    ∃ count after, IsGreatest {count | Disposable retain (min stored.log.gate external) now
        stored.log.segments count} count ∧
      (stored.cleanupAll retain external now = (.ok true, after) ∧
          (stored.log.segments = [] ∨
            stored.LastDisposable retain (min stored.log.gate external) now count) ∧
          stored.Pruned stored.log.segments [] after ∨
        stored.cleanupAll retain external now = (.ok false, after) ∧
          ¬ (stored.log.segments = [] ∨
            stored.LastDisposable retain (min stored.log.gate external) now count) ∧
          stored.Pruned (stored.log.segments.take count) (stored.log.segments.drop count)
            after) :=
  ⟨htidy.cleanup_pruned retain now, htidy.cleanupAll_pruned retain external now⟩

end Tidy

/-- Two segments made a day apart, and a reader where the second one starts. -/
def twoDays : StoredLog where
  log := {
    topic := "t"
    segments := [⟨"00000000000000000000.20200101000000", 0⟩,
      ⟨"00000000000000000002.20200102000000", 2⟩]
    maxOffset := 3
    readers := [⟨0, "r", ⟨[⟨"00000000000000000002.20200102000000", 2⟩], 2, 0, 3, 3⟩⟩]
    nextReader := 1 }
  dir := {
    place := .folder [("00000000000000000000.20200101000000", .file ⟨0, [1, 2], ⟨1577836800, 0⟩⟩),
      ("00000000000000000002.20200102000000", .file ⟨1, [3], ⟨1577923200, 0⟩⟩)]
    nextId := 2 }

theorem tidy_twoDays : twoDays.Tidy where
  ascending := by decide
  named := by decide +kernel
  dated segment hsegment := by
    have hvalid : ∀ segment ∈ twoDays.log.segments, segment.created.toOption.isSome := by
      decide +kernel
    cases hcreated : segment.created with
    | error fault => simpa [hcreated, Except.toOption] using hvalid segment hsegment
    | ok created => exact ⟨created, rfl⟩
  readers := by decide
  usable := Or.inr rfl
  sorted := List.pairwise_pair.mpr (by decide +kernel)
  known name item hmem := by
    simp only [twoDays, Directory.entries, List.mem_cons, List.not_mem_nil, or_false,
      Prod.mk.injEq] at hmem
    rcases hmem with ⟨rfl, rfl⟩ | ⟨rfl, rfl⟩ <;> simp [twoDays]
  last last hlast := by
    obtain rfl : _ = last := Option.some.inj hlast
    exact ⟨⟨1, [3], ⟨1577923200, 0⟩⟩, List.mem_cons_of_mem _ List.mem_cons_self⟩

/-- A day after it was made, the first segment goes if a day is to be kept: the gate is exactly at
    the second one, and the age exactly a day. -/
theorem cleanup_twoDays :
    ∃ after, twoDays.cleanup 86400000000000 ⟨1577923200, 0⟩ = (.ok false, after) ∧
      after.log.segments = [⟨"00000000000000000002.20200102000000", 2⟩] ∧
      ∃ cursor, Cursor.place after.log.segments after.log.maxOffset 2 = .ok cursor := by
  obtain ⟨⟨count, after, hgreatest, hclean, hpruned, -⟩, -⟩ :=
    tidy_twoDays.cleanups_delete_disposable 86400000000000 3 ⟨1577923200, 0⟩
  have hbound : count < 2 := hgreatest.1.lt_length (by simp [twoDays])
  have hone : Disposable 86400000000000 twoDays.log.gate ⟨1577923200, 0⟩ twoDays.log.segments 1 := by
    intro index hindex
    obtain rfl : index = 0 := by omega
    exact ⟨_, _, ⟨1577836800, 0⟩, rfl, rfl, by decide, by decide +kernel, by decide⟩
  obtain rfl : count = 1 := le_antisymm (by omega) (hgreatest.2 hone)
  have hlog := hpruned.log
  have hplaced := hpruned.placed _ List.mem_cons_self
  refine ⟨after, hclean, by rw [hlog]; rfl, ?_⟩
  rw [hlog]
  exact hplaced

/-- What was made in the leap second of a minute is a second old when the next minute begins. -/
example : (SegmentName.created "00000000000000000000.20200101123460").toOption.map
    (Instant.age ⟨1577882100, 0⟩) = some 1000000000 := by decide +kernel

end StoredLog

end ReplicatedLog
