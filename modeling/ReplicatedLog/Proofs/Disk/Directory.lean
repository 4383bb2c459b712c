import ReplicatedLog.Proofs.Disk.Items
import ReplicatedLog.Proofs.Segment.Name

namespace ReplicatedLog.Directory

/-- The items of a directory, none where nothing can be held. -/
def entries (dir : Directory) : Items :=
  match dir.place with
  | .folder items => items
  | _ => []

/-- The files of a directory in the order of their names. -/
def files (dir : Directory) : List (String × File) :=
  dir.entries.files

/-- A directory that exists or can be made. Its names ascend, every file has an identity of its own
    that was given out before, and no directory in it stands at the name of a segment. -/
structure Sound (dir : Directory) : Prop where
  usable : dir.place = .missing ∨ dir.place = .folder dir.entries
  ascending : dir.entries.Ascending
  folders : ∀ name start, SegmentName.offset name = .ok start → (name, .folder) ∉ dir.entries
  identities : (dir.files.map (·.2.id)).Nodup
  fresh : ∀ entry ∈ dir.files, entry.2.id < dir.nextId

/-- A directory that is not there yet. -/
theorem Sound.missing : Sound {} where
  usable := Or.inl rfl
  ascending := List.Pairwise.nil
  folders _ _ _ := List.not_mem_nil
  identities := List.Pairwise.nil
  fresh _ hentry := absurd hentry List.not_mem_nil

@[simp] theorem entries_setItems (dir : Directory) (items : Items) :
    (dir.setItems items).entries = items := rfl

@[simp] theorem files_setItems (dir : Directory) (items : Items) :
    (dir.setItems items).files = items.files := rfl

theorem items_of_folder {dir : Directory} (hfolder : dir.place = .folder dir.entries) :
    dir.items = .ok dir.entries := by
  unfold items
  rw [hfolder]

theorem entries_of_missing {dir : Directory} (hmissing : dir.place = .missing) :
    dir.entries = [] := by
  unfold entries
  rw [hmissing]

theorem items_of_missing {dir : Directory} (hmissing : dir.place = .missing) :
    dir.items = .error .notFound := by
  unfold items
  rw [hmissing]

/-- What stands at a name of a directory that exists is found there, if the name is not too long. -/
theorem item_of_short {dir : Directory} {name : String} (hfolder : dir.place = .folder dir.entries)
    (hshort : name.utf8ByteSize ≤ maxNameLength) :
    dir.item name = match dir.entries.find? name with
      | some item => .ok item
      | none => .error .notFound := by
  have hfits := Nat.not_lt.mpr hshort
  cases hfind : dir.entries.find? name <;>
    simp [item, items_of_folder hfolder, hfits, hfind, bind, Except.bind]

/-- What stands at the name of a segment is found there. -/
theorem item_of_folder {dir : Directory} {name : String} {start : Nat}
    (hfolder : dir.place = .folder dir.entries) (hname : SegmentName.offset name = .ok start) :
    dir.item name = match dir.entries.find? name with
      | some item => .ok item
      | none => .error .notFound :=
  item_of_short hfolder (SegmentName.utf8ByteSize_le_maxNameLength hname)

/-- A directory that holds a file exists. -/
theorem place_of_mem_files {dir : Directory} {entry : String × File} (hmem : entry ∈ dir.files) :
    dir.place = .folder dir.entries := by
  unfold files entries at hmem
  unfold entries
  cases hplace : dir.place with
  | folder items => rfl
  | _ => simp [hplace, Items.files] at hmem

/-- The file under the name of a segment is found there, whatever else the directory holds. -/
theorem file_of_mem_files {dir : Directory} {name : String} {file : File} {start : Nat}
    (hascending : dir.entries.Ascending) (hname : SegmentName.offset name = .ok start)
    (hmem : (name, file) ∈ dir.files) : dir.file name = .ok file := by
  have hfind : dir.entries.find? name = some (.file file) :=
    hascending.find?_eq_some_iff.mpr (Items.mem_files.mp hmem)
  simp [Directory.file, item_of_folder (place_of_mem_files hmem) hname, hfind, bind, Except.bind]

theorem openFile_of_mem_files {dir : Directory} {name : String} {file : File} {start : Nat}
    (hascending : dir.entries.Ascending) (hname : SegmentName.offset name = .ok start)
    (hmem : (name, file) ∈ dir.files) (now : Instant) :
    dir.openFile name now = .ok (file.id, dir) := by
  have hfind : dir.entries.find? name = some (.file file) :=
    hascending.find?_eq_some_iff.mpr (Items.mem_files.mp hmem)
  have hfolder := place_of_mem_files hmem
  simp [openFile, items_of_folder hfolder, item_of_folder hfolder hname, hfind, absent, bind,
    Except.bind]

theorem size?_of_size {dir : Directory} {name : String} {length : Nat}
    (hsize : dir.size name = .ok length) : dir.size? name = .ok (some length) := by
  unfold size at hsize
  cases hfile : dir.file name with
  | error fault => simp [hfile, bind, Except.bind] at hsize
  | ok file =>
    obtain rfl : file.bytes.length = length := by simpa [hfile, bind, Except.bind] using hsize
    simp [size?, hfile, absent, bind, Except.bind]

/-- Deleting the file of a segment frees its name, also where the file is gone already. -/
theorem discard_of_folder {dir : Directory} {name : String} {start : Nat}
    (hfolder : dir.place = .folder dir.entries) (hname : SegmentName.offset name = .ok start)
    (hfile : (name, .folder) ∉ dir.entries) :
    dir.discard name = .ok (dir.setItems (dir.entries.erase name)) := by
  have hitem := item_of_folder hfolder hname
  cases hfind : dir.entries.find? name with
  | none =>
    have hfree : dir.entries.erase name = dir.entries := by
      refine List.filter_eq_self.mpr fun entry hentry => ?_
      rw [Items.find?, Option.map_eq_none_iff, List.find?_eq_none] at hfind
      simpa using hfind entry hentry
    have hsame : dir.setItems dir.entries = dir := by rw [setItems, ← hfolder]
    rw [hfind] at hitem
    simp [discard, delete, Directory.file, hitem, absent, hfree, hsame, bind, Except.bind]
  | some item =>
    rw [hfind] at hitem
    cases item with
    | file file =>
      simp [discard, delete, Directory.file, hitem, items_of_folder hfolder, absent, bind,
        Except.bind]
    | folder =>
      obtain ⟨entry, hentry, hfolder'⟩ := Option.map_eq_some_iff.mp hfind
      have hat : entry.1 = name := by simpa using List.find?_some hentry
      have heq : entry = (name, .folder) := Prod.ext hat hfolder'
      exact absurd (heq ▸ List.mem_of_find?_eq_some hentry) hfile

/-- What can be listed is what the directory holds. -/
theorem files_of_listing {dir : Directory} {files : List (String × File)}
    (hlisting : dir.listing = .ok files) : dir.files = files := by
  unfold listing items at hlisting
  unfold Directory.files entries
  cases hplace : dir.place with
  | missing => simpa [hplace, absent, bind, Except.bind, Items.files] using hlisting
  | file => simp [hplace, absent, bind, Except.bind, IoFault.notFound, IoFault.notADirectory]
      at hlisting
  | folder items => simpa [hplace, absent, bind, Except.bind] using hlisting
  | unnameable parent =>
    cases parent with
    | true => simp [hplace, absent, bind, Except.bind, IoFault.notFound, IoFault.nameTooLong]
        at hlisting
    | false => simpa [hplace, absent, bind, Except.bind, Items.files] using hlisting

section

variable {dir : Directory}

/-- A directory that exists or can be made. -/
def Usable (dir : Directory) : Prop :=
  dir.place = .missing ∨ dir.place = .folder dir.entries

theorem Usable.listing (husable : dir.Usable) : dir.listing = .ok dir.files := by
  rcases husable with hmissing | hfolder
  · simp [Directory.listing, items_of_missing hmissing, absent, files, entries_of_missing hmissing,
      Items.files, bind, Except.bind]
  · simp [Directory.listing, items_of_folder hfolder, absent, files, bind, Except.bind]

theorem Usable.make (husable : dir.Usable) :
    ∃ made, dir.make = (.ok (), made) ∧ made.place = .folder made.entries ∧
      made.entries = dir.entries ∧ made.nextId = dir.nextId := by
  rcases husable with hmissing | hfolder
  · exact ⟨dir.setItems [], by simp [Directory.make, hmissing], rfl,
      (entries_of_missing hmissing).symm, rfl⟩
  · exact ⟨dir, by simp [Directory.make, hfolder], hfolder, rfl, rfl⟩

/-- Whatever stands at the path, to make the directory leaves the names in it in order. -/
theorem ascending_make (hascending : dir.entries.Ascending) : dir.make.2.entries.Ascending := by
  unfold make
  split
  · exact List.Pairwise.nil
  · exact hascending
  · exact hascending
  · exact List.Pairwise.nil

theorem ascending_openFile (hascending : dir.entries.Ascending) {name : String} {now : Instant}
    {id : Nat} {after : Directory} (hopen : dir.openFile name now = .ok (id, after)) :
    after.entries.Ascending := by
  unfold openFile at hopen
  cases hitems : dir.items with
  | error fault => simp [hitems, bind, Except.bind] at hopen
  | ok items =>
    have hentries : dir.entries = items := by
      unfold Directory.items at hitems
      unfold entries
      split at hitems <;> simp_all
    simp only [hitems, bind, Except.bind] at hopen
    split at hopen
    · cases hopen
    · split at hopen
      · obtain ⟨-, rfl⟩ := Prod.mk.inj (Except.ok.inj hopen)
        exact hascending
      · cases hopen
      · obtain ⟨-, rfl⟩ := Prod.mk.inj (Except.ok.inj hopen)
        exact (hentries ▸ hascending).insert name _

theorem ascending_extend (hascending : dir.entries.Ascending) (id : Nat) (data : Bytes)
    (now : Instant) : (dir.extend id data now).entries.Ascending := by
  unfold extend
  split
  next items hplace =>
    rw [entries, hplace] at hascending
    exact Items.Ascending.extend hascending id data now
  next => exact hascending

end

namespace Sound

variable {dir : Directory} {name : String} {file : File} {start : Nat}

/-- More identities may have been given out since, for files elsewhere. -/
theorem of_nextId_le (hdir : dir.Sound) {nextId : Nat} (hle : dir.nextId ≤ nextId) :
    Sound { dir with nextId } where
  usable := hdir.usable
  ascending := hdir.ascending
  folders := hdir.folders
  identities := hdir.identities
  fresh entry hmem := (hdir.fresh entry hmem).trans_le hle

theorem listing_eq (hdir : dir.Sound) : dir.listing = .ok dir.files :=
  Usable.listing hdir.usable

theorem file_of_mem (hdir : dir.Sound) (hname : SegmentName.offset name = .ok start)
    (hmem : (name, file) ∈ dir.files) : dir.file name = .ok file :=
  file_of_mem_files hdir.ascending hname hmem

theorem find?_eq_none (hdir : dir.Sound) (hname : SegmentName.offset name = .ok start)
    (habsent : ∀ file, (name, file) ∉ dir.files) : dir.entries.find? name = none := by
  cases hfind : dir.entries.find? name with
  | none => rfl
  | some item =>
    have hmem := hdir.ascending.find?_eq_some_iff.mp hfind
    cases item with
    | file file => exact absurd (Items.mem_files.mpr hmem) (habsent file)
    | folder => exact absurd hmem (hdir.folders name start hname)

theorem item_of_absent (hdir : dir.Sound) (hname : SegmentName.offset name = .ok start)
    (habsent : ∀ file, (name, file) ∉ dir.files) : dir.item name = .error .notFound := by
  rcases hdir.usable with hmissing | hfolder
  · simp [item, items_of_missing hmissing, bind, Except.bind]
  · rw [item_of_folder hfolder hname, hdir.find?_eq_none hname habsent]

theorem file_of_absent (hdir : dir.Sound) (hname : SegmentName.offset name = .ok start)
    (habsent : ∀ file, (name, file) ∉ dir.files) : dir.file name = .error .notFound := by
  simp [Directory.file, hdir.item_of_absent hname habsent, bind, Except.bind]

theorem size_of_mem (hdir : dir.Sound) (hname : SegmentName.offset name = .ok start)
    (hmem : (name, file) ∈ dir.files) : dir.size name = .ok file.bytes.length := by
  simp [size, hdir.file_of_mem hname hmem, bind, Except.bind]

theorem size?_of_mem (hdir : dir.Sound) (hname : SegmentName.offset name = .ok start)
    (hmem : (name, file) ∈ dir.files) : dir.size? name = .ok (some file.bytes.length) := by
  simp [size?, hdir.file_of_mem hname hmem, absent, bind, Except.bind]

theorem size?_of_absent (hdir : dir.Sound) (hname : SegmentName.offset name = .ok start)
    (habsent : ∀ file, (name, file) ∉ dir.files) : dir.size? name = .ok none := by
  simp [size?, hdir.file_of_absent hname habsent, absent, bind, Except.bind]

/-- Whether there is a file under the name of a segment can always be told. -/
theorem exists_size? (hdir : dir.Sound) (hname : SegmentName.offset name = .ok start) :
    ∃ size, dir.size? name = .ok size := by
  by_cases hpresent : ∃ file, (name, file) ∈ dir.files
  · obtain ⟨file, hmem⟩ := hpresent
    exact ⟨_, hdir.size?_of_mem hname hmem⟩
  · exact ⟨_, hdir.size?_of_absent hname (not_exists.mp hpresent)⟩

/-- After `make` the directory exists, with the files that it had. -/
theorem make_spec (hdir : dir.Sound) :
    ∃ made, dir.make = (.ok (), made) ∧ made.Sound ∧ made.place = .folder made.entries ∧
      made.files = dir.files ∧ made.nextId = dir.nextId := by
  obtain ⟨made, hmake, hfolder, hentries, hid⟩ := Usable.make hdir.usable
  have hfiles : made.files = dir.files := by rw [files, files, hentries]
  refine ⟨made, hmake, ⟨Or.inr hfolder, hentries ▸ hdir.ascending, hentries ▸ hdir.folders,
    hfiles ▸ hdir.identities, ?_⟩, hfolder, hfiles, hid⟩
  rw [hfiles, hid]
  exact hdir.fresh

theorem openFile_of_mem (hdir : dir.Sound) (hname : SegmentName.offset name = .ok start)
    (hmem : (name, file) ∈ dir.files) (now : Instant) :
    dir.openFile name now = .ok (file.id, dir) :=
  openFile_of_mem_files hdir.ascending hname hmem now

/-- A segment name behind those of all files gets a new file, which is listed last. -/
theorem openFile_last (hdir : dir.Sound) (hfolder : dir.place = .folder dir.entries)
    (hname : SegmentName.offset name = .ok start)
    (hlast : ∀ entry ∈ dir.files, entry.1 < name) (now : Instant) :
    ∃ opened, dir.openFile name now = .ok (dir.nextId, opened) ∧ opened.Sound ∧
      opened.files = dir.files ++ [(name, ⟨dir.nextId, [], now⟩)] ∧
      opened.nextId = dir.nextId + 1 := by
  have habsent : ∀ file, (name, file) ∉ dir.files := fun file hmem =>
    lt_irrefl _ (hlast _ hmem)
  have hnew : ∀ item, (name, item) ∉ dir.entries := fun item hmem => by
    have hfind := hdir.ascending.find?_eq_some_iff.mpr hmem
    rw [hdir.find?_eq_none hname habsent] at hfind
    cases hfind
  let opened : Directory :=
    ⟨.folder (dir.entries.insert name (.file ⟨dir.nextId, [], now⟩)), dir.nextId + 1⟩
  have hfiles : opened.files = dir.files ++ [(name, ⟨dir.nextId, [], now⟩)] :=
    hdir.ascending.files_insert_last hlast hnew
  refine ⟨opened, ?_, ?_, hfiles, rfl⟩
  · simp [openFile, items_of_folder hfolder, hdir.item_of_absent hname habsent, absent, bind,
      Except.bind, opened]
  · constructor
    · exact Or.inr rfl
    · exact hdir.ascending.insert _ _
    · intro other offset hother hmem
      rcases Items.mem_insert hmem with heq | hmem
      · cases heq
      · exact hdir.folders other offset hother hmem
    · rw [hfiles, List.map_append, List.nodup_append]
      refine ⟨hdir.identities, by simp, ?_⟩
      intro id hid other hother
      obtain ⟨entry, hentry, rfl⟩ := List.mem_map.mp hid
      have hlt := hdir.fresh entry hentry
      simp only [List.map_cons, List.map_nil, List.mem_singleton] at hother
      omega
    · intro entry hmem
      rw [hfiles, List.mem_append, List.mem_singleton] at hmem
      change entry.2.id < dir.nextId + 1
      rcases hmem with hmem | rfl
      · exact (hdir.fresh entry hmem).trans (Nat.lt_succ_self _)
      · exact Nat.lt_succ_self _

theorem nextId_extend (dir : Directory) (id : Nat) (data : Bytes) (now : Instant) :
    (dir.extend id data now).nextId = dir.nextId := by
  unfold extend
  split <;> rfl

theorem entries_extend (hfolder : dir.place = .folder dir.entries) (id : Nat) (data : Bytes)
    (now : Instant) : dir.extend id data now = dir.setItems (dir.entries.extend id data now) := by
  unfold extend
  rw [hfolder]

theorem files_extend (hdir : dir.Sound) (id : Nat) (data : Bytes) (now : Instant) :
    (dir.extend id data now).files =
      dir.files.map fun entry => (entry.1, Items.extended id data now entry.2) := by
  rcases hdir.usable with hmissing | hfolder
  · have hempty := entries_of_missing hmissing
    have hsame : dir.extend id data now = dir := by
      unfold extend
      rw [hmissing]
    simp [hsame, files, hempty, Items.files]
  · rw [entries_extend hfolder, files_setItems, Items.files_extend]
    rfl

theorem id_extended (id : Nat) (data : Bytes) (now : Instant) (file : File) :
    (Items.extended id data now file).id = file.id := by
  unfold Items.extended
  split <;> rfl

theorem extend (hdir : dir.Sound) (id : Nat) (data : Bytes) (now : Instant) :
    (dir.extend id data now).Sound := by
  rcases hdir.usable with hmissing | hfolder
  · have hsame : dir.extend id data now = dir := by
      unfold Directory.extend
      rw [hmissing]
    rwa [hsame]
  · have hfiles := hdir.files_extend id data now
    rw [entries_extend hfolder] at hfiles ⊢
    constructor
    · exact Or.inr rfl
    · exact hdir.ascending.extend id data now
    · exact fun name start hname hmem =>
        hdir.folders name start hname (Items.mem_extend_folder hmem)
    · rw [hfiles, List.map_map]
      simpa only [Function.comp_def, id_extended] using hdir.identities
    · intro entry hmem
      rw [hfiles] at hmem
      obtain ⟨kept, hkept, rfl⟩ := List.mem_map.mp hmem
      change (Items.extended id data now kept.2).id < dir.nextId
      rw [id_extended]
      exact hdir.fresh kept hkept

/-- The file of a segment name can be deleted, and nothing else is. -/
theorem discard_of_mem (hdir : dir.Sound) (hname : SegmentName.offset name = .ok start)
    (hmem : (name, file) ∈ dir.files) :
    ∃ rest, dir.discard name = .ok rest ∧ rest.Sound ∧
      rest.files = dir.files.filter (fun entry => entry.1 ≠ name) ∧ rest.nextId = dir.nextId := by
  have hfolder := place_of_mem_files hmem
  have hfiles : (dir.setItems (dir.entries.erase name)).files =
      dir.files.filter fun entry => entry.1 ≠ name := Items.files_erase
  refine ⟨dir.setItems (dir.entries.erase name), ?_, ?_, hfiles, rfl⟩
  · simp [discard, delete, hdir.file_of_mem hname hmem, items_of_folder hfolder, absent, bind,
      Except.bind]
  · constructor
    · exact Or.inr rfl
    · exact hdir.ascending.erase name
    · exact fun other offset hother hother' =>
        hdir.folders other offset hother (List.mem_filter.mp hother').1
    · rw [hfiles]
      exact hdir.identities.sublist (List.filter_sublist.map _)
    · intro entry hentry
      rw [hfiles] at hentry
      exact hdir.fresh entry (List.mem_filter.mp hentry).1

/-- Removing a directory without files deletes no file, whether it succeeds or not. -/
theorem discardEmpty_spec (hdir : dir.Sound) {rest : Directory}
    (hrest : dir.discardEmpty = .ok rest) :
    rest.Sound ∧ rest.files = [] ∧ dir.files = [] ∧ rest.nextId = dir.nextId := by
  rcases hdir.usable with hmissing | hfolder
  · have hempty := entries_of_missing hmissing
    have hsame : dir = rest := by
      simpa [discardEmpty, items_of_missing hmissing, absent, bind, Except.bind] using hrest
    subst hsame
    exact ⟨hdir, by simp [files, hempty, Items.files], by simp [files, hempty, Items.files], rfl⟩
  · cases hentries : dir.entries with
    | nil =>
      simp only [discardEmpty, items_of_folder hfolder, hentries, absent, bind, Except.bind,
        Except.ok.injEq] at hrest
      subst hrest
      refine ⟨⟨Or.inl rfl, List.Pairwise.nil, ?_, ?_, ?_⟩, rfl, by simp [files, hentries, Items.files], rfl⟩
      · exact fun name start hname hmem => by simp [entries] at hmem
      · exact List.Pairwise.nil
      · exact fun entry hmem => by simp [files, entries, Items.files] at hmem
    | cons entry others =>
      simp [discardEmpty, items_of_folder hfolder, hentries, absent, bind, Except.bind] at hrest

end Sound

end ReplicatedLog.Directory
