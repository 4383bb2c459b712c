import ReplicatedLog.Proofs.Disk.Checkpoint

namespace ReplicatedLog.Checkpoint

/-- An offset that is stored for a topic at some time. -/
structure Post where
  topic : String
  offset : Nat
  time : Instant

/-- The topic can have a checkpoint, and the offset is one of 64 bits. -/
structure Post.Fits (post : Post) : Prop where
  storable : Storable post.topic
  offset_lt : post.offset < 2 ^ 64

/-- Stores one after the other, up to the first that fails. -/
def storeAll (dir : Directory) : List Post → Except Fault Unit × Directory
  | [] => (.ok (), dir)
  | post :: rest =>
    match store dir post.topic post.offset post.time with
    | (.error fault, dir) => (.error fault, dir)
    | (.ok (), dir) => storeAll dir rest

/-- The offset of the last post for a topic. -/
def lastOffset (posts : List Post) (topic : String) : Option Nat :=
  (posts.filter fun post => post.topic = topic).getLast?.map (·.offset)

/-- A directory in which checkpoints are kept and nothing else. -/
structure Keeps (posts : List Post) (dir : Directory) : Prop where
  shelf : Shelf dir
  named : ∀ name, dir.entries.find? name ≠ none ↔ ∃ post ∈ posts, name = fileName post.topic
  loads : ∀ topic, Loadable topic → load dir topic = .ok (lastOffset posts topic)

variable {dir : Directory} {posts later : List Post} {post : Post} {topic : String}

theorem lastOffset_concat_self (posts : List Post) (post : Post) :
    lastOffset (posts ++ [post]) post.topic = some post.offset := by
  simp [lastOffset, List.filter_append]

theorem lastOffset_concat_of_ne (hne : topic ≠ post.topic) :
    lastOffset (posts ++ [post]) topic = lastOffset posts topic := by
  simp [lastOffset, List.filter_append, hne.symm]

theorem Post.Fits.offset_le (hfits : post.Fits) : post.offset ≤ Decimal.maxValue :=
  Decimal.le_maxValue_iff.mpr hfits.offset_lt

theorem keeps_empty (hempty : dir.place = .missing ∨ dir.place = .folder []) : Keeps [] dir := by
  have hentries : dir.entries = [] := by
    rcases hempty with hmissing | hfolder
    · exact Directory.entries_of_missing hmissing
    · simp [Directory.entries, hfolder]
  have hnone : ∀ name, dir.entries.find? name = none := by
    intro name
    rw [hentries]
    rfl
  have hshelf : Shelf dir := by
    refine ⟨?_, fun name => by rw [hnone name]; simp⟩
    rcases hempty with hmissing | hfolder
    · exact .inl hmissing
    · rw [hentries]
      exact .inr hfolder
  refine ⟨hshelf, fun name => ?_, fun topic htopic => hshelf.load_of_absent htopic (hnone _)⟩
  simp [hnone name]

/-- No draft is left over. -/
theorem Keeps.find?_draftName (hkeeps : Keeps posts dir) (topic : String) :
    dir.entries.find? (draftName topic) = none := by
  by_contra hsome
  obtain ⟨post, -, hname⟩ := (hkeeps.named _).mp hsome
  exact fileName_ne_draftName post.topic topic hname.symm

/-- A store is one more post. -/
theorem Keeps.store (hkeeps : Keeps posts dir) (hfits : post.Fits) :
    ∃ after, Checkpoint.store dir post.topic post.offset post.time = (.ok (), after) ∧
      Keeps (posts ++ [post]) after := by
  obtain ⟨file, after, hstore, hafter, hbytes, hfind⟩ :=
    hkeeps.shelf.store_lookup hfits.storable post.offset post.time
  refine ⟨after, hstore, hafter, fun name => ?_, fun topic htopic => ?_⟩
  · simp only [List.mem_append, List.mem_singleton, or_and_right, exists_or, exists_eq_left]
    rw [hfind name, ← hkeeps.named name]
    by_cases hfile : name = fileName post.topic
    · rw [if_pos hfile]
      exact iff_of_true (Option.some_ne_none _) (.inr hfile)
    · rw [if_neg hfile, or_iff_left hfile]
      by_cases hdraft : name = draftName post.topic
      · rw [if_pos hdraft, hdraft, hkeeps.find?_draftName]
      · rw [if_neg hdraft]
  · by_cases hsame : topic = post.topic
    · subst hsame
      rw [lastOffset_concat_self]
      refine hafter.load_of_file htopic ?_ hbytes hfits.offset_le
      rw [hfind, if_pos rfl]
    · rw [lastOffset_concat_of_ne hsame, ← hkeeps.loads topic htopic]
      refine hkeeps.shelf.load_congr hafter htopic ?_
      rw [hfind, if_neg fun hname => hsame (fileName_inj hname),
        if_neg (fileName_ne_draftName topic post.topic)]

theorem Keeps.storeAll (hkeeps : Keeps posts dir) (hfits : ∀ post ∈ later, post.Fits) :
    ∃ after, storeAll dir later = (.ok (), after) ∧ Keeps (posts ++ later) after := by
  induction later generalizing posts dir with
  | nil => exact ⟨dir, rfl, (List.append_nil posts).symm ▸ hkeeps⟩
  | cons post later ih =>
    obtain ⟨next, hstore, hnext⟩ := hkeeps.store (hfits post List.mem_cons_self)
    obtain ⟨after, hall, hafter⟩ := ih hnext fun other hmem => hfits other (List.mem_cons_of_mem _ hmem)
    rw [List.append_assoc] at hafter
    refine ⟨after, ?_, hafter⟩
    rw [Checkpoint.storeAll, hstore]
    exact hall

/-- Stores into an empty directory all succeed. For each topic the last offset is loaded that was stored
    for it, and there is a file for each of these topics and nothing else. Another store changes what is
    loaded for its own topic at most, and even that only once its draft has taken the place of the file. -/
theorem loads_last_offsets (hempty : dir.place = .missing ∨ dir.place = .folder [])
    (hfits : ∀ post ∈ posts, post.Fits) :
    ∃ after, storeAll dir posts = (.ok (), after) ∧
      (∀ topic, Loadable topic → load after topic = .ok (lastOffset posts topic)) ∧
      (∀ name, after.entries.find? name ≠ none ↔ ∃ post ∈ posts, name = fileName post.topic) ∧
      (∀ topic, after.entries.find? (draftName topic) = none) ∧
      ∀ post : Post, post.Fits →
        (∃ next, store after post.topic post.offset post.time = (.ok (), next) ∧
          ∀ topic, topic ≠ post.topic → Loadable topic → load next topic = load after topic) ∧
        ∀ bytes, ∃ drafted, after.make.2.write (draftName post.topic) bytes post.time = .ok drafted ∧
          ∀ topic, Loadable topic → load drafted topic = load after topic := by
  obtain ⟨after, hall, hkeeps⟩ := (keeps_empty hempty).storeAll hfits
  rw [List.nil_append] at hkeeps
  refine ⟨after, hall, hkeeps.loads, hkeeps.named, hkeeps.find?_draftName, fun post hpost => ⟨?_, ?_⟩⟩
  · obtain ⟨next, hstore, -, -, hothers⟩ :=
      hkeeps.shelf.store_spec hpost.storable hpost.offset_le post.time
    exact ⟨next, hstore, hothers⟩
  · intro bytes
    obtain ⟨-, drafted, hwrite, -, -, -, -, -, hloads⟩ :=
      hkeeps.shelf.draft_spec hpost.storable bytes post.time
    exact ⟨drafted, hwrite, hloads⟩

/-- Topics whose names look like those of files and drafts of another, in a directory that is not there
    yet. -/
theorem loads_last_offsets_dotted :
    let posts : List Post := [⟨"a", 7, ⟨0, 0⟩⟩, ⟨"a.offset", 2 ^ 64 - 1, ⟨0, 0⟩⟩,
      ⟨"a.offset.tmp", 0, ⟨1, 0⟩⟩, ⟨"a", 1024, ⟨2, 0⟩⟩]
    (({} : Directory).place = .missing ∧ ∀ post ∈ posts, post.Fits) ∧
      ∃ after, storeAll {} posts = (.ok (), after) ∧
        (Loadable "a" ∧ load after "a" = .ok (some 1024)) ∧
        (Loadable "a.offset" ∧ load after "a.offset" = .ok (some (2 ^ 64 - 1))) ∧
        (Loadable "b" ∧ load after "b" = .ok none) ∧
        (Post.Fits ⟨"b", 1, ⟨3, 0⟩⟩ ∧ ∃ next, store after "b" 1 ⟨3, 0⟩ = (.ok (), next) ∧
          load next "a" = load after "a") := by
  intro posts
  have hfits : ∀ post ∈ posts ++ [⟨"b", 1, ⟨3, 0⟩⟩], post.Fits := by
    intro post hmem
    simp only [posts, List.cons_append, List.nil_append, List.mem_cons, List.not_mem_nil, or_false] at hmem
    rcases hmem with rfl | rfl | rfl | rfl | rfl <;>
      exact ⟨⟨by decide +kernel, by decide +kernel⟩, by decide⟩
  have hposts : ∀ post ∈ posts, post.Fits := fun post hmem => hfits post (List.mem_append_left _ hmem)
  have hpost : Post.Fits ⟨"b", 1, ⟨3, 0⟩⟩ := hfits _ (List.mem_append_right _ List.mem_cons_self)
  have ha := (hposts ⟨"a", 7, ⟨0, 0⟩⟩ List.mem_cons_self).storable.loadable
  have hdotted := (hposts ⟨"a.offset", 2 ^ 64 - 1, ⟨0, 0⟩⟩
    (List.mem_cons_of_mem _ List.mem_cons_self)).storable.loadable
  have hempty : ({} : Directory).place = .missing ∨ ({} : Directory).place = .folder [] := .inl rfl
  obtain ⟨after, hall, hloads, -, -, hnext⟩ := loads_last_offsets hempty hposts
  obtain ⟨⟨next, hstore, hothers⟩, -⟩ := hnext _ hpost
  refine ⟨⟨rfl, hposts⟩, after, hall, ⟨ha, hloads "a" ha⟩, ⟨hdotted, hloads _ hdotted⟩,
    ⟨hpost.storable.loadable, hloads "b" hpost.storable.loadable⟩, hpost, next, hstore, ?_⟩
  exact hothers "a" (by decide) ha

end ReplicatedLog.Checkpoint
