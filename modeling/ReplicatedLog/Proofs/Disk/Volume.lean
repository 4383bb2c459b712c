import ReplicatedLog.Disk.Volume
import ReplicatedLog.Proofs.Disk.Directory

namespace ReplicatedLog.Volume

variable {volume : Volume} {topic other : String} {place : Place} {dir : Directory}
  {places : List (String × Place)}

theorem lookup_insertPlace_self : (insertPlace topic place places).lookup topic = some place := by
  fun_induction insertPlace topic place places with
  | case1 => simp
  | case2 => simp
  | case3 => simp
  | case4 next kept rest _ hne ih =>
    rw [List.lookup_cons, beq_false_of_ne hne]
    exact ih

theorem lookup_insertPlace_of_ne (hne : other ≠ topic) :
    (insertPlace topic place places).lookup other = places.lookup other := by
  fun_induction insertPlace topic place places with
  | case1 => simp [List.lookup_cons, beq_false_of_ne hne]
  | case2 => simp [List.lookup_cons, beq_false_of_ne hne]
  | case3 => simp [List.lookup_cons, beq_false_of_ne hne]
  | case4 next kept rest _ _ ih => rw [List.lookup_cons, List.lookup_cons, ih]

theorem lookup_filter_self {α : Type} {entries : List (String × α)} :
    (entries.filter fun entry => entry.1 ≠ topic).lookup topic = none := by
  induction entries with
  | nil => rfl
  | cons entry rest ih =>
    by_cases hname : entry.1 = topic
    · rw [List.filter_cons_of_neg (by simpa using hname)]
      exact ih
    · rw [List.filter_cons_of_pos (by simpa using hname), List.lookup_cons,
        beq_false_of_ne (Ne.symm hname)]
      exact ih

theorem lookup_filter_of_ne {α : Type} {entries : List (String × α)} (hne : other ≠ topic) :
    (entries.filter fun entry => entry.1 ≠ topic).lookup other = entries.lookup other := by
  induction entries with
  | nil => rfl
  | cons entry rest ih =>
    by_cases hname : entry.1 = topic
    · rw [List.filter_cons_of_neg (by simpa using hname), List.lookup_cons, hname,
        beq_false_of_ne hne]
      exact ih
    · rw [List.filter_cons_of_pos (by simpa using hname), List.lookup_cons, List.lookup_cons, ih]

/-- A directory that was put back is found again. -/
theorem directory_setDirectory_self (hshort : topic.utf8ByteSize ≤ maxNameLength)
    (hplace : dir.place = .missing ∨ ∃ items, dir.place = .folder items) :
    (volume.setDirectory topic dir).directory topic = dir := by
  obtain ⟨place, nextId⟩ := dir
  rcases hplace with rfl | ⟨items, rfl⟩
  · simp only [setDirectory, directory, lookup_filter_self, if_neg (Nat.not_lt.mpr hshort)]
  · simp only [setDirectory, directory, lookup_insertPlace_self]

/-- The directories of other topics stay as they are. -/
theorem directory_setDirectory_of_ne (hne : other ≠ topic)
    (hshort : other.utf8ByteSize ≤ maxNameLength) :
    (volume.setDirectory topic dir).directory other =
      { volume.directory other with nextId := dir.nextId } := by
  obtain ⟨place, nextId⟩ := dir
  cases place with
  | missing => simp only [setDirectory, directory, lookup_filter_of_ne hne]
  | unnameable parent => simp only [setDirectory, directory, if_neg (Nat.not_lt.mpr hshort)]
  | file =>
    simp only [setDirectory, directory, lookup_insertPlace_of_ne hne,
      if_neg (Nat.not_lt.mpr hshort)]
  | folder items =>
    simp only [setDirectory, directory, lookup_insertPlace_of_ne hne,
      if_neg (Nat.not_lt.mpr hshort)]

/-- What stands at the names of other topics does not change. -/
theorem lookup_setDirectory_of_ne (hne : other ≠ topic) :
    (volume.setDirectory topic dir).places.lookup other = volume.places.lookup other := by
  unfold setDirectory
  split
  · exact lookup_filter_of_ne hne
  · rfl
  · exact lookup_insertPlace_of_ne hne

/-- A root directory in which the names stand for files and for directories that list their items in
    order. -/
structure WellFormed (volume : Volume) : Prop where
  nameable : ∀ topic parent, volume.places.lookup topic ≠ some (.unnameable parent)
  ascending : ∀ topic items, volume.places.lookup topic = some (.folder items) → items.Ascending

namespace WellFormed

/-- Only a name that is too long can have no directory. -/
theorem place_ne_unnameable (hvolume : volume.WellFormed)
    (hshort : topic.utf8ByteSize ≤ maxNameLength) (parent : Bool) :
    (volume.directory topic).place ≠ .unnameable parent := by
  intro hplace
  unfold Volume.directory at hplace
  dsimp only at hplace
  split at hplace
  next place hlookup => exact hvolume.nameable topic parent (hlookup.trans (congrArg some hplace))
  next hlookup =>
    rw [if_neg (Nat.not_lt.mpr hshort)] at hplace
    cases hplace

theorem entries_ascending (hvolume : volume.WellFormed) (topic : String) :
    (volume.directory topic).entries.Ascending := by
  unfold Directory.entries Volume.directory
  dsimp only
  cases hlookup : volume.places.lookup topic with
  | none =>
    by_cases hlong : maxNameLength < topic.utf8ByteSize
    · simp only [if_pos hlong]
      exact List.Pairwise.nil
    · simp only [if_neg hlong]
      exact List.Pairwise.nil
  | some place =>
    cases place with
    | folder items => exact hvolume.ascending topic items hlookup
    | _ => exact List.Pairwise.nil

/-- A directory that is put back is as good as it was given. -/
theorem setDirectory (hvolume : volume.WellFormed) (hascending : dir.entries.Ascending) :
    (volume.setDirectory topic dir).WellFormed := by
  have hself : (volume.setDirectory topic dir).places.lookup topic = none ∨
      (volume.setDirectory topic dir).places.lookup topic = volume.places.lookup topic ∨
      (∀ parent, dir.place ≠ .unnameable parent) ∧
        (volume.setDirectory topic dir).places.lookup topic = some dir.place := by
    unfold Volume.setDirectory
    split
    next => exact Or.inl lookup_filter_self
    next => exact Or.inr (Or.inl rfl)
    next hmissing hnamed =>
      exact Or.inr (Or.inr ⟨hnamed, lookup_insertPlace_self⟩)
  refine ⟨fun other parent hlookup => ?_, fun other items hlookup => ?_⟩
  · by_cases hname : other = topic
    · subst hname
      rcases hself with hnone | hsame | ⟨hnamed, hplace⟩
      · cases hnone.symm.trans hlookup
      · exact hvolume.nameable other parent (hsame.symm.trans hlookup)
      · exact hnamed parent (Option.some.inj (hplace.symm.trans hlookup))
    · rw [lookup_setDirectory_of_ne hname] at hlookup
      exact hvolume.nameable other parent hlookup
  · by_cases hname : other = topic
    · subst hname
      rcases hself with hnone | hsame | ⟨-, hplace⟩
      · cases hnone.symm.trans hlookup
      · exact hvolume.ascending other items (hsame.symm.trans hlookup)
      · have hfolder := Option.some.inj (hplace.symm.trans hlookup)
        rw [Directory.entries, hfolder] at hascending
        exact hascending
    · rw [lookup_setDirectory_of_ne hname] at hlookup
      exact hvolume.ascending other items hlookup

end WellFormed

theorem wellFormed_empty : WellFormed {} where
  nameable _ _ hlookup := by cases hlookup
  ascending _ _ hlookup := by cases hlookup

end ReplicatedLog.Volume
