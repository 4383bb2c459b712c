import Mathlib.Data.List.Basic
import Mathlib.Data.String.Basic
import ReplicatedLog.Disk.Directory

namespace ReplicatedLog.Items

/-- No name stands for two items, and the names ascend. -/
def Ascending (items : Items) : Prop :=
  items.Pairwise fun entry next => entry.1 < next.1

variable {items : Items} {name : String}

theorem Ascending.find?_eq_some_iff (hitems : items.Ascending) {item : Item} :
    items.find? name = some item ↔ (name, item) ∈ items := by
  induction items with
  | nil => simp [find?]
  | cons entry rest ih =>
    obtain ⟨hfirst, hrest⟩ := List.pairwise_cons.mp hitems
    have hfind : find? name (entry :: rest) =
        if entry.1 = name then some entry.2 else find? name rest := by
      simp only [find?, List.find?_cons]
      by_cases hname : entry.1 = name <;> simp [hname]
    rw [hfind, List.mem_cons]
    by_cases hname : entry.1 = name
    · rw [if_pos hname]
      constructor
      · intro hitem
        exact Or.inl (Prod.ext hname.symm (Option.some.inj hitem).symm)
      · rintro (heq | hmem)
        · rw [← heq]
        · exact absurd (hname ▸ hfirst _ hmem) (lt_irrefl _)
    · rw [if_neg hname, ih hrest]
      constructor
      · exact Or.inr
      · rintro (heq | hmem)
        · exact absurd (congrArg Prod.fst heq).symm hname
        · exact hmem

@[simp] theorem mem_files {file : File} : (name, file) ∈ items.files ↔ (name, .file file) ∈ items := by
  simp only [files, List.mem_filterMap]
  constructor
  · rintro ⟨⟨other, item⟩, hmem, hentry⟩
    cases item with
    | file kept =>
      obtain ⟨rfl, rfl⟩ : other = name ∧ kept = file := by simpa using hentry
      exact hmem
    | folder => simp at hentry
  · exact fun hmem => ⟨_, hmem, rfl⟩

theorem mem_insert {item : Item} {entry : String × Item} (hmem : entry ∈ items.insert name item) :
    entry = (name, item) ∨ entry ∈ items := by
  fun_induction insert name item items with
  | case1 => simpa using hmem
  | case2 => simpa using hmem
  | case3 =>
    rcases List.mem_cons.mp hmem with heq | hrest
    · exact Or.inl heq
    · exact Or.inr (List.mem_cons_of_mem _ hrest)
  | case4 other kept rest _ _ ih =>
    rcases List.mem_cons.mp hmem with heq | hrest
    · exact Or.inr (heq ▸ List.mem_cons_self)
    · exact (ih hrest).imp_right (List.mem_cons_of_mem _)

@[simp] theorem find?_insert_self {item : Item} : (items.insert name item).find? name = some item := by
  fun_induction insert name item items with
  | case1 => simp [find?]
  | case2 => simp [find?]
  | case3 => simp [find?]
  | case4 other kept rest _ hne ih =>
    simpa [find?, Ne.symm hne] using ih

theorem find?_insert_of_ne {item : Item} {other : String} (hne : other ≠ name) :
    (items.insert name item).find? other = items.find? other := by
  fun_induction insert name item items with
  | case1 => simp [find?, Ne.symm hne]
  | case2 => simp [find?, Ne.symm hne]
  | case3 => simp [find?, Ne.symm hne]
  | case4 next kept rest _ _ ih =>
    by_cases hname : next = other
    · simp [find?, hname]
    · simpa [find?, hname] using ih

theorem find?_erase_self : (items.erase name).find? name = none := by
  simp [find?, erase]

theorem find?_erase_of_ne {other : String} (hne : other ≠ name) :
    (items.erase name).find? other = items.find? other := by
  induction items with
  | nil => rfl
  | cons entry rest ih =>
    by_cases hname : entry.1 = name
    · simpa [erase, find?, hname, Ne.symm hne] using ih
    · by_cases hother : entry.1 = other
      · simp [erase, find?, hother, hne]
      · simpa [erase, find?, hname, hother] using ih

theorem Ascending.insert (hitems : items.Ascending) (name : String) (item : Item) :
    (items.insert name item).Ascending := by
  fun_induction Items.insert name item items with
  | case1 => exact List.pairwise_singleton _ _
  | case2 other kept rest hlt =>
    refine List.pairwise_cons.mpr ⟨fun entry hmem => ?_, hitems⟩
    rcases List.mem_cons.mp hmem with rfl | hrest
    · exact hlt
    · exact hlt.trans ((List.pairwise_cons.mp hitems).1 entry hrest)
  | case3 kept rest _ => exact List.pairwise_cons.mpr (List.pairwise_cons.mp hitems)
  | case4 other kept rest hle hne ih =>
    obtain ⟨hfirst, hrest⟩ := List.pairwise_cons.mp hitems
    refine List.pairwise_cons.mpr ⟨fun entry hmem => ?_, ih hrest⟩
    rcases mem_insert hmem with rfl | hmem
    · exact lt_of_le_of_ne (not_lt.mp hle) (Ne.symm hne)
    · exact hfirst entry hmem

theorem Ascending.files (hitems : items.Ascending) :
    items.files.Pairwise fun entry next => entry.1 < next.1 := by
  refine List.Pairwise.filterMap _ ?_ hitems
  rintro ⟨name, item⟩ ⟨other, following⟩ hlt entry hentry next hnext
  cases item with
  | folder => cases hentry
  | file file =>
    cases following with
    | folder => cases hnext
    | file kept =>
      obtain rfl := Option.some.inj hentry
      obtain rfl := Option.some.inj hnext
      exact hlt

/-- A file whose name is new and behind those of all files is listed last. -/
theorem Ascending.files_insert_last (hitems : items.Ascending) {file : File}
    (hlast : ∀ entry ∈ items.files, entry.1 < name) (hnew : ∀ item, (name, item) ∉ items) :
    (items.insert name (.file file)).files = items.files ++ [(name, file)] := by
  fun_induction Items.insert name (.file file) items with
  | case1 => rfl
  | case2 other kept rest hlt =>
    have hnone : Items.files ((other, kept) :: rest) = [] := by
      rw [List.eq_nil_iff_forall_not_mem]
      rintro ⟨listed, found⟩ hmem
      rcases List.mem_cons.mp (mem_files.mp hmem) with heq | hrest
      · obtain rfl := (Prod.mk.inj heq).1
        exact lt_asymm hlt (hlast _ hmem)
      · have := (List.pairwise_cons.mp hitems).1 _ hrest
        exact lt_asymm (hlt.trans this) (hlast _ hmem)
    rw [hnone, List.nil_append]
    change (name, file) :: Items.files ((other, kept) :: rest) = _
    rw [hnone]
  | case3 kept rest _ => exact absurd List.mem_cons_self (hnew kept)
  | case4 other kept rest hle hne ih =>
    have hrest : (Items.insert name (.file file) rest).files = Items.files rest ++ [(name, file)] := by
      apply ih (List.pairwise_cons.mp hitems).2
      · rintro ⟨listed, found⟩ hmem
        exact hlast _ (mem_files.mpr (List.mem_cons_of_mem _ (mem_files.mp hmem)))
      · exact fun item hmem => hnew item (List.mem_cons_of_mem _ hmem)
    cases kept with
    | file stored => exact congrArg ((other, stored) :: ·) hrest
    | folder => exact hrest

theorem Ascending.erase (hitems : items.Ascending) (name : String) :
    (items.erase name).Ascending :=
  List.Pairwise.filter _ hitems

theorem files_erase : (items.erase name).files = items.files.filter fun entry => entry.1 ≠ name := by
  induction items with
  | nil => rfl
  | cons entry rest ih =>
    obtain ⟨other, item⟩ := entry
    by_cases hname : other = name <;> cases item <;>
      simp_all [erase, files]

/-- A file with bytes added to it, if it has the given identity. -/
def extended (id : Nat) (data : Bytes) (now : Instant) (file : File) : File :=
  if file.id = id then { file with bytes := file.bytes ++ data, modified := now } else file

theorem files_extend {id : Nat} {data : Bytes} {now : Instant} :
    (items.extend id data now).files =
      items.files.map fun entry => (entry.1, extended id data now entry.2) := by
  induction items with
  | nil => rfl
  | cons entry rest ih =>
    obtain ⟨other, item⟩ := entry
    cases item with
    | folder => simpa [extend, files] using ih
    | file file =>
      by_cases hid : file.id = id <;> simpa [extend, files, extended, hid] using ih

theorem map_fst_extend {id : Nat} {data : Bytes} {now : Instant} :
    (items.extend id data now).map Prod.fst = items.map Prod.fst := by
  induction items with
  | nil => rfl
  | cons entry rest ih =>
    obtain ⟨other, item⟩ := entry
    cases item with
    | folder => simpa [extend] using ih
    | file file => by_cases hid : file.id = id <;> simpa [extend, hid] using ih

theorem Ascending.extend (hitems : items.Ascending) (id : Nat) (data : Bytes) (now : Instant) :
    (items.extend id data now).Ascending := by
  unfold Ascending at *
  rw [← List.pairwise_map (f := Prod.fst) (R := (· < ·))] at *
  rwa [map_fst_extend]

theorem mem_extend_folder {id : Nat} {data : Bytes} {now : Instant}
    (hmem : (name, .folder) ∈ items.extend id data now) : (name, .folder) ∈ items := by
  obtain ⟨⟨other, item⟩, hentry, heq⟩ := List.mem_map.mp hmem
  cases item with
  | folder => simpa [← heq] using hentry
  | file file => by_cases hid : file.id = id <;> simp [hid] at heq

end ReplicatedLog.Items
