import ReplicatedLog.Disk.Volume
import ReplicatedLog.Proofs.Disk.Directory
import ReplicatedLog.Proofs.Text.Decimal
import ReplicatedLog.Proofs.Text.Utf8

namespace ReplicatedLog.Checkpoint

/-- A directory that exists or can be made, with nothing in it but files. -/
structure Shelf (dir : Directory) : Prop where
  usable : dir.place = .missing ∨ dir.place = .folder dir.entries
  files : ∀ name, dir.entries.find? name ≠ some .folder

/-- A topic whose checkpoint has a name that a file can have. -/
structure Loadable (topic : String) : Prop where
  valid : Topic.IsValid topic
  short : (fileName topic).utf8ByteSize ≤ maxNameLength

/-- A topic whose checkpoint and the draft of it have names that a file can have. -/
structure Storable (topic : String) : Prop where
  valid : Topic.IsValid topic
  short : (draftName topic).utf8ByteSize ≤ maxNameLength

theorem Loadable.not_nested {topic : String} (htopic : Loadable topic) : isNested topic = false := by
  unfold isNested
  rw [← Bool.not_eq_true, List.contains_iff_mem]
  intro hmem
  have hchar := List.all_eq_true.mp htopic.valid.2.2.2 '/' hmem
  simp [Topic.isNameChar] at hchar

namespace Storable

variable {topic : String}

theorem draftName_eq (htopic : Storable topic) : draftName topic = topic ++ ".offset.tmp" :=
  if_neg htopic.valid.1

theorem loadable (htopic : Storable topic) : Loadable topic where
  valid := htopic.valid
  short := by
    have hshort := htopic.short
    have hfile : ".offset".utf8ByteSize = 7 := rfl
    have hdraft : ".offset.tmp".utf8ByteSize = 11 := rfl
    rw [htopic.draftName_eq, String.utf8ByteSize_append] at hshort
    rw [fileName, String.utf8ByteSize_append]
    omega

/-- The topic itself can be the name of a directory too. -/
theorem topic_short (htopic : Storable topic) : topic.utf8ByteSize ≤ maxNameLength := by
  have hshort := htopic.loadable.short
  rw [fileName, String.utf8ByteSize_append] at hshort
  omega

end Storable

variable {dir : Directory} {topic other name : String} {offset : Nat}

theorem fileName_inj (hname : fileName other = fileName topic) : other = topic := by
  have hchars := congrArg String.toList hname
  simp only [fileName, String.toList_append] at hchars
  exact String.toList_inj.mp (List.append_cancel_right hchars)

/-- Files and drafts have names that end differently, however a topic may end. -/
theorem fileName_ne_draftName (other topic : String) : fileName other ≠ draftName topic := by
  intro hname
  have hlast := congrArg (fun name => name.toList.getLast?) hname
  unfold draftName at hlast
  split at hlast <;> simp [fileName, String.toList_append, List.getLast?_append] at hlast

/-- What is loaded fits into 64 bits, whatever the file of the topic holds. -/
theorem le_of_load (hload : load dir topic = .ok (some offset)) : offset ≤ Decimal.maxValue := by
  unfold load at hload
  split at hload
  · cases hload
  · split at hload
    · cases hload
    · cases hload
    · split at hload
      · cases hload
      · split at hload
        next hread => exact Option.some.inj (Except.ok.inj hload) ▸ Decimal.parse_le hread
        next => cases hload

namespace Shelf

theorem empty : Shelf {} :=
  ⟨Or.inl rfl, fun name => by simp [Directory.entries, Items.find?]⟩

theorem files_insert (hdir : Shelf dir) (name : String) (file : File) (other : String) :
    (dir.entries.insert name (.file file)).find? other ≠ some .folder := by
  by_cases hother : other = name
  · rw [hother, Items.find?_insert_self]
    simp
  · rw [Items.find?_insert_of_ne hother]
    exact hdir.files other

/-- What is looked up on a shelf is a file or nothing. -/
theorem absent_file (hdir : Shelf dir) (hshort : name.utf8ByteSize ≤ maxNameLength) :
    dir.entries.find? name = none ∧ Directory.absent (dir.file name) = .ok none ∨
      ∃ file, dir.entries.find? name = some (.file file) ∧
        Directory.absent (dir.file name) = .ok (some file) := by
  rcases hdir.usable with hmissing | hfolder
  · rw [Directory.entries_of_missing hmissing]
    exact Or.inl ⟨rfl, by
      simp [Directory.file, Directory.item, Directory.items_of_missing hmissing, Directory.absent,
        bind, Except.bind]⟩
  · have hitem := Directory.item_of_short hfolder hshort
    cases hfind : dir.entries.find? name with
    | none =>
      rw [hfind] at hitem
      exact Or.inl ⟨rfl, by simp [Directory.file, hitem, Directory.absent, bind, Except.bind]⟩
    | some item =>
      rw [hfind] at hitem
      cases item with
      | folder => exact absurd hfind (hdir.files name)
      | file file =>
        exact Or.inr ⟨file, rfl, by
          simp [Directory.file, hitem, Directory.absent, bind, Except.bind]⟩

/-- A shelf is made unless it is there. -/
theorem make_spec (hdir : Shelf dir) :
    ∃ made, dir.make = (.ok (), made) ∧ made.place = .folder made.entries ∧ Shelf made ∧
      made.entries = dir.entries := by
  rcases hdir.usable with hmissing | hfolder
  · have hnone := Directory.entries_of_missing hmissing
    exact ⟨dir.setItems [], by simp [Directory.make, hmissing], rfl,
      ⟨Or.inr rfl, fun name => by simp [Items.find?]⟩, hnone.symm⟩
  · exact ⟨dir, by simp [Directory.make, hfolder], hfolder, hdir, rfl⟩

/-- A file can be opened whether or not it is there, which matters to no other. -/
theorem openFile_spec (hdir : Shelf dir) (hfolder : dir.place = .folder dir.entries)
    (hshort : name.utf8ByteSize ≤ maxNameLength) (now : Instant) :
    ∃ id opened, dir.openFile name now = .ok (id, opened) ∧
      opened.place = .folder opened.entries ∧ Shelf opened ∧
      ∀ other, other ≠ name → opened.entries.find? other = dir.entries.find? other := by
  have hitem := Directory.item_of_short hfolder hshort
  cases hfind : dir.entries.find? name with
  | none =>
    rw [hfind] at hitem
    refine ⟨dir.nextId, ⟨.folder (dir.entries.insert name (.file ⟨dir.nextId, [], now⟩)),
      dir.nextId + 1⟩, ?_, rfl, ⟨Or.inr rfl, hdir.files_insert name _⟩,
      fun other hne => Items.find?_insert_of_ne hne⟩
    simp [Directory.openFile, Directory.items_of_folder hfolder, hitem, Directory.absent, bind,
      Except.bind]
  | some item =>
    rw [hfind] at hitem
    cases item with
    | folder => exact absurd hfind (hdir.files name)
    | file file =>
      refine ⟨file.id, dir, ?_, hfolder, hdir, fun _ _ => rfl⟩
      simp [Directory.openFile, Directory.items_of_folder hfolder, hitem, Directory.absent, bind,
        Except.bind]

/-- A file that is written is there, and the others are as they were. -/
theorem write_spec (hdir : Shelf dir) (hfolder : dir.place = .folder dir.entries)
    (hshort : name.utf8ByteSize ≤ maxNameLength) (bytes : Bytes) (now : Instant) :
    ∃ file after, dir.write name bytes now = .ok after ∧ file.bytes = bytes ∧
      after.place = .folder after.entries ∧ Shelf after ∧
      after.entries.find? name = some (.file file) ∧
      ∀ other, other ≠ name → after.entries.find? other = dir.entries.find? other := by
  obtain ⟨id, opened, hopen, hopened, hshelf, hothers⟩ := hdir.openFile_spec hfolder hshort now
  refine ⟨⟨id, bytes, now⟩, opened.setItems (opened.entries.insert name (.file ⟨id, bytes, now⟩)),
    ?_, rfl, rfl, ⟨Or.inr rfl, hshelf.files_insert name _⟩, Items.find?_insert_self,
    fun other hne => (Items.find?_insert_of_ne hne).trans (hothers other hne)⟩
  simp [Directory.write, hopen, Directory.items_of_folder hopened, bind, Except.bind]

/-- A file that is given another name is there under that one. -/
theorem rename_spec (hdir : Shelf dir) (hfolder : dir.place = .folder dir.entries)
    {source : String} (hshort : source.utf8ByteSize ≤ maxNameLength) {file : File}
    (hfile : dir.entries.find? source = some (.file file)) (target : String) :
    ∃ after, dir.rename source target = .ok after ∧ Shelf after ∧
      ∀ name, after.entries.find? name =
        if name = target then some (.file file) else if name = source then none
        else dir.entries.find? name := by
  have hitem := Directory.item_of_short hfolder hshort
  rw [hfile] at hitem
  have hfind : ∀ name, ((dir.entries.erase source).insert target (.file file)).find? name =
      if name = target then some (.file file) else if name = source then none
      else dir.entries.find? name := by
    intro name
    by_cases htarget : name = target
    · rw [htarget, Items.find?_insert_self, if_pos rfl]
    · rw [Items.find?_insert_of_ne htarget, if_neg htarget]
      by_cases hsource : name = source
      · rw [hsource, Items.find?_erase_self, if_pos rfl]
      · rw [Items.find?_erase_of_ne hsource, if_neg hsource]
  refine ⟨dir.setItems ((dir.entries.erase source).insert target (.file file)), ?_,
    ⟨Or.inr rfl, fun name => ?_⟩, hfind⟩
  · simp [Directory.rename, Directory.file, hitem, Directory.items_of_folder hfolder, bind,
      Except.bind]
  · change ((dir.entries.erase source).insert target (.file file)).find? name ≠ _
    rw [hfind name]
    split
    · simp
    · split
      · simp
      · exact hdir.files name

/-- Nothing but the file of a topic says what is stored for it. -/
theorem load_congr {after : Directory} (hdir : Shelf dir) (hafter : Shelf after)
    (htopic : Loadable topic)
    (hfile : after.entries.find? (fileName topic) = dir.entries.find? (fileName topic)) :
    load after topic = load dir topic := by
  have hsame : Directory.absent (after.file (fileName topic)) =
      Directory.absent (dir.file (fileName topic)) := by
    rcases hdir.absent_file htopic.short with ⟨hnone, habsent⟩ | ⟨file, hsome, hpresent⟩ <;>
      rcases hafter.absent_file htopic.short with
        ⟨hnoneAfter, habsentAfter⟩ | ⟨later, hsomeAfter, hpresentAfter⟩ <;>
      simp_all
  unfold load
  rw [hsame]

theorem load_of_file (hdir : Shelf dir) (htopic : Loadable topic) {file : File}
    (hfile : dir.entries.find? (fileName topic) = some (.file file))
    (hbytes : file.bytes = Utf8.encode (toString offset)) (hfits : offset ≤ Decimal.maxValue) :
    load dir topic = .ok (some offset) := by
  have hpresent : Directory.absent (dir.file (fileName topic)) = .ok (some file) := by
    rcases hdir.absent_file htopic.short with ⟨hnone, -⟩ | ⟨found, hsome, hpresent⟩
    · rw [hnone] at hfile
      cases hfile
    · rw [hsome] at hfile
      obtain rfl := Item.file.inj (Option.some.inj hfile)
      exact hpresent
  have hdigits : trim (toString offset).toList = (toString offset).toList :=
    trim_digits fun _ => Decimal.isDigit_of_mem_toString
  simp only [load, htopic.not_nested, Bool.false_eq_true, if_false, hpresent, hbytes,
    Utf8.decode?_encode, hdigits, Decimal.parse_toString hfits]

theorem load_of_absent (hdir : Shelf dir) (htopic : Loadable topic)
    (hnone : dir.entries.find? (fileName topic) = none) : load dir topic = .ok none := by
  have habsent : Directory.absent (dir.file (fileName topic)) = .ok none := by
    rcases hdir.absent_file htopic.short with ⟨-, habsent⟩ | ⟨found, hsome, -⟩
    · exact habsent
    · rw [hnone] at hsome
      cases hsome
  simp only [load, htopic.not_nested, Bool.false_eq_true, if_false, habsent]

/-- A draft that is written, whatever it says, is not loaded for any topic. -/
theorem draft_spec (hdir : Shelf dir) (htopic : Storable topic) (bytes : Bytes) (now : Instant) :
    ∃ file drafted, dir.make.2.write (draftName topic) bytes now = .ok drafted ∧
      file.bytes = bytes ∧ drafted.place = .folder drafted.entries ∧ Shelf drafted ∧
      drafted.entries.find? (draftName topic) = some (.file file) ∧
      (∀ other, other ≠ draftName topic → drafted.entries.find? other = dir.entries.find? other) ∧
      ∀ other, Loadable other → load drafted other = load dir other := by
  obtain ⟨made, hmake, hfolder, hmade, hentries⟩ := hdir.make_spec
  obtain ⟨file, drafted, hwrite, hbytes, hplace, hshelf, hdraft, hkept⟩ :=
    hmade.write_spec hfolder htopic.short bytes now
  rw [hentries] at hkept
  refine ⟨file, drafted, ?_, hbytes, hplace, hshelf, hdraft, hkept, fun other hother => ?_⟩
  · rw [hmake]
    exact hwrite
  · exact hdir.load_congr hshelf hother (hkept _ (fileName_ne_draftName other topic))

/-- What stands in the directory after an offset was stored: its file in place of the one before, and
    no draft. -/
theorem store_lookup (hdir : Shelf dir) (htopic : Storable topic) (offset : Nat) (now : Instant) :
    ∃ file after, store dir topic offset now = (.ok (), after) ∧ Shelf after ∧
      file.bytes = Utf8.encode (toString offset) ∧
      ∀ name, after.entries.find? name =
        if name = fileName topic then some (.file file) else if name = draftName topic then none
        else dir.entries.find? name := by
  obtain ⟨made, hmake, -⟩ := hdir.make_spec
  obtain ⟨file, drafted, hwrite, hbytes, hplace, hshelf, hdraft, hkept, -⟩ :=
    hdir.draft_spec htopic (Utf8.encode (toString offset)) now
  obtain ⟨after, hrename, hafter, hfind⟩ := hshelf.rename_spec hplace htopic.short hdraft (fileName topic)
  rw [hmake] at hwrite
  refine ⟨file, after, ?_, hafter, hbytes, fun name => ?_⟩
  · simp only [store, hmake, replace, htopic.loadable.not_nested, Bool.false_eq_true, if_false, hwrite,
      hrename, bind, Except.bind]
  · rw [hfind name]
    by_cases hname : name = draftName topic
    · rw [if_pos hname, if_pos hname]
    · rw [if_neg hname, if_neg hname, hkept name hname]

/-- An offset that is stored for a topic is loaded for it from then on. -/
theorem store_spec (hdir : Shelf dir) (htopic : Storable topic) (hfits : offset ≤ Decimal.maxValue)
    (now : Instant) :
    ∃ after, store dir topic offset now = (.ok (), after) ∧ Shelf after ∧
      load after topic = .ok (some offset) ∧
      ∀ other, other ≠ topic → Loadable other → load after other = load dir other := by
  obtain ⟨file, after, hstore, hafter, hbytes, hfind⟩ := hdir.store_lookup htopic offset now
  refine ⟨after, hstore, hafter, ?_, fun other hne hother => hdir.load_congr hafter hother ?_⟩
  · refine hafter.load_of_file htopic.loadable ?_ hbytes hfits
    rw [hfind, if_pos rfl]
  · rw [hfind, if_neg fun hname => hne (fileName_inj hname),
      if_neg (fileName_ne_draftName other topic)]

end Shelf

end ReplicatedLog.Checkpoint
