import ReplicatedLog.Program.Check
import ReplicatedLog.Proofs.Block.Stream
import ReplicatedLog.Proofs.Disk.Volume
import ReplicatedLog.Proofs.Log.Legible
import ReplicatedLog.Proofs.Zstd.Storing

namespace ReplicatedLog

/-- Two streams of bytes that a digest does not tell apart. -/
structure Sha512.Collision (first second : Bytes) : Prop where
  ne : first ≠ second
  digest_eq : digest first = digest second

theorem Sha512.eq_or_collision {first second : Bytes} (hdigest : digest first = digest second) :
    first = second ∨ Collision first second := by
  by_cases hsame : first = second
  · exact Or.inl hsame
  · exact Or.inr ⟨hsame, hdigest⟩

namespace Check

variable {left right : Store} {volume : Volume} {topic side : String} {sum : Checksum}

/-- The checksum of a topic in a root is that of the log which its directory holds. -/
theorem checksum_eq_ok_iff : checksum { volume } topic side = .ok sum ↔
    Topic.validate topic = .ok () ∧
      ∃ stored, StoredLog.ofDirectory topic (volume.directory topic) = .ok stored ∧
        stored.checksum = .ok sum := by
  unfold checksum Store.get
  cases hvalid : Topic.validate topic with
  | error fault => simp [Store.peek?]
  | ok _ =>
    cases hopen : StoredLog.ofDirectory topic (volume.directory topic) with
    | error fault => simp [Store.peek?]
    | ok stored =>
      obtain ⟨htopic, hdir⟩ := StoredLog.topic_of_ofDirectory hopen
      have hstored : Store.stored? (Store.tell { volume, logs := [stored.log], catalog := [(topic, 0)] }
          (.opened topic stored.log.maxOffset)) 0 = some stored := by
        simp [Store.stored?, Store.tell, htopic, ← hdir]
      cases hsum : stored.checksum <;> simp_all [Store.peek?, Except.mapError]

theorem verdict_eq_equal_iff : verdict left right topic = .ok (.equal sum) ↔
    topic ∈ left.volume.topics ∧ topic ∈ right.volume.topics ∧
      checksum left topic "left" = .ok sum ∧ checksum right topic "right" = .ok sum := by
  unfold verdict
  by_cases hboth : topic ∈ left.volume.topics ∧ topic ∈ right.volume.topics
  · rw [if_pos (by simpa using hboth)]
    cases checksum left topic "left" with
    | error fault => simp [bind, Except.bind]
    | ok first =>
      cases checksum right topic "right" with
      | error fault => simp [bind, Except.bind]
      | ok second =>
        by_cases hsame : first = second
        · subst hsame
          simp [bind, Except.bind, hboth]
        · have hother : first = sum → second ≠ sum := fun hfirst hsecond =>
            hsame (hfirst.trans hsecond.symm)
          simpa [bind, Except.bind, hsame, hboth] using hother
  · rw [if_neg (by simpa using hboth)]
    simpa using fun hleft hright => absurd ⟨hleft, hright⟩ hboth

theorem verdicts_equal_iff (list : List String) :
    (verdicts left right list).2 = .ok () ∧
        ((verdicts left right list).1.filter fun entry => !entry.2.isEqual).length = 0 ↔
      ∀ topic ∈ list, ∃ sum, verdict left right topic = .ok (.equal sum) := by
  induction list with
  | nil => simp [verdicts]
  | cons topic rest ih =>
    rw [verdicts]
    cases hverdict : verdict left right topic with
    | error fault => simp [hverdict]
    | ok found =>
      cases found with
      | equal sum => simpa [hverdict, Verdict.isEqual] using ih
      | different first second => simp [hverdict, Verdict.isEqual]
      | oneSided => simp [hverdict, Verdict.isEqual]

theorem mem_topics : topic ∈ topics left right ↔
    topic ∈ left.volume.topics ∨ topic ∈ right.volume.topics := by
  simp [topics]

/-- No difference is found just where every topic has equal checksums on both sides. -/
theorem run_eq_ok_iff : (run left right).2 = .ok () ↔
    ∀ topic ∈ topics left right, ∃ sum, verdict left right topic = .ok (.equal sum) := by
  rw [← verdicts_equal_iff]
  unfold run
  rcases verdicts left right (topics left right) with ⟨found, fault | _⟩
  · simp [Except.bind]
  · simp [Except.bind]

/-- No difference is found just where both roots have the same topics, and each topic has one
    checksum on both sides. -/
theorem run_eq_ok_iff_of_volumes {left right : Volume} :
    (run { volume := left } { volume := right }).2 = .ok () ↔
      (∀ topic, topic ∈ left.topics ↔ topic ∈ right.topics) ∧
        ∀ topic ∈ left.topics, Topic.validate topic = .ok () ∧ ∃ first second sum,
          StoredLog.ofDirectory topic (left.directory topic) = .ok first ∧
          StoredLog.ofDirectory topic (right.directory topic) = .ok second ∧
          first.checksum = .ok sum ∧ second.checksum = .ok sum := by
  rw [run_eq_ok_iff]
  simp only [mem_topics, verdict_eq_equal_iff, checksum_eq_ok_iff]
  constructor
  · intro hall
    refine ⟨fun topic => ⟨fun hmem => ?_, fun hmem => ?_⟩, fun topic hmem => ?_⟩
    · obtain ⟨sum, -, hright, -⟩ := hall topic (Or.inl hmem)
      exact hright
    · obtain ⟨sum, hleft, -⟩ := hall topic (Or.inr hmem)
      exact hleft
    · obtain ⟨sum, -, -, ⟨hvalid, first, hfirst, hleft⟩, -, second, hsecond, hright⟩ :=
        hall topic (Or.inl hmem)
      exact ⟨hvalid, first, second, sum, hfirst, hsecond, hleft, hright⟩
  · rintro ⟨hsame, hall⟩ topic hmem
    have hleft : topic ∈ left.topics := hmem.elim id (hsame topic).mpr
    obtain ⟨hvalid, first, second, sum, hfirst, hsecond, hsum, hother⟩ := hall topic hleft
    exact ⟨sum, hleft, (hsame topic).mp hleft, ⟨hvalid, first, hfirst, hsum⟩, hvalid, second, hsecond,
      hother⟩

/-- The entries of two logs that a comparison takes for equal. -/
structure Matching (first second : StoredLog) (lefts rights : List Bytes) : Prop where
  left : first.Reads lefts
  right : second.Reads rights
  length_eq : lefts.length = rights.length
  flatten_eq : lefts.flatten = rights.flatten ∨ Sha512.Collision lefts.flatten rights.flatten
  bytes_eq : first.log.maxOffset - first.log.firstOffset =
    second.log.maxOffset - second.log.firstOffset

/-- Two logs have one checksum exactly where they match. -/
theorem checksum_eq_iff_matching {first second : StoredLog} {leftDir rightDir : Directory}
    (hleftAscending : leftDir.entries.Ascending) (hrightAscending : rightDir.entries.Ascending)
    (hfirst : StoredLog.ofDirectory topic leftDir = .ok first)
    (hsecond : StoredLog.ofDirectory topic rightDir = .ok second) :
    (∃ sum, first.checksum = .ok sum ∧ second.checksum = .ok sum) ↔
      ∃ lefts rights, Matching first second lefts rights := by
  simp only [StoredLog.checksum_eq_ok_iff hleftAscending hfirst,
    StoredLog.checksum_eq_ok_iff hrightAscending hsecond]
  constructor
  · rintro ⟨sum, ⟨lefts, hlefts, hleft⟩, rights, hrights, hright⟩
    obtain ⟨hdigest, hlength, hbytes⟩ := Checksum.mk.inj (hleft.symm.trans hright)
    exact ⟨lefts, rights, hlefts, hrights, hlength, Sha512.eq_or_collision hdigest, hbytes⟩
  · rintro ⟨lefts, rights, hmatching⟩
    have hdigest : Sha512.digest lefts.flatten = Sha512.digest rights.flatten :=
      hmatching.flatten_eq.elim (congrArg _) Sha512.Collision.digest_eq
    refine ⟨_, ⟨lefts, hmatching.left, rfl⟩, rights, hmatching.right, ?_⟩
    rw [hdigest, hmatching.length_eq, hmatching.bytes_eq]

/-- No difference is found just where both roots have the same topics, and every topic can be read to its
    end on both sides and has equally many entries there, whose bytes in a row are the same. Unless the
    ends of a log are repeated, these are the entries of the blocks that its segments hold back to
    back. -/
theorem run_ok_iff_matching {left right : Volume} (hleft : left.WellFormed)
    (hright : right.WellFormed) :
    ((run { volume := left } { volume := right }).2 = .ok () ↔
      (∀ topic, topic ∈ left.topics ↔ topic ∈ right.topics) ∧
        ∀ topic ∈ left.topics, Topic.validate topic = .ok () ∧ ∃ first second,
          StoredLog.ofDirectory topic (left.directory topic) = .ok first ∧
          StoredLog.ofDirectory topic (right.directory topic) = .ok second ∧
          ∃ lefts rights, Matching first second lefts rights) ∧
    ∀ volume ∈ [left, right], ∀ topic stored list,
      StoredLog.ofDirectory topic (volume.directory topic) = .ok stored → stored.Reads list →
        stored.Bounded → stored.Unrepeated →
          ∃ bytes blocks, stored.MadeOf bytes blocks ∧
            list = blocks.flatMap fun block => block.entries.1 := by
  constructor
  · rw [run_eq_ok_iff_of_volumes]
    refine and_congr_right fun _ => forall₂_congr fun topic _ => and_congr_right fun _ => ?_
    refine exists₂_congr fun first second => ?_
    simp only [exists_and_left]
    refine and_congr_right fun hfirst => and_congr_right fun hsecond => ?_
    exact checksum_eq_iff_matching (hleft.entries_ascending topic)
      (hright.entries_ascending topic) hfirst hsecond
  · intro volume hvolume topic stored list hopen hreads hbounded hunrepeated
    have hascending : (volume.directory topic).entries.Ascending := by
      rcases List.mem_pair.mp hvolume with rfl | rfl
      · exact hleft.entries_ascending topic
      · exact hright.entries_ascending topic
    obtain ⟨-, bytes, blocks, hmade, hlist, -⟩ :=
      hreads.madeOf hascending hopen hbounded hunrepeated
    exact ⟨bytes, blocks, hmade, hlist⟩

section SingleBlock

variable {list other : List Bytes} {stored : StoredLog}

/-- A root with one topic, which is a block of `list` in one file. -/
def singleBlock (list : List Bytes) : Volume where
  present := true
  places := [("t", .folder [("00000000000000000000.20200101000000",
    .file ⟨0, Block.framedBytes Zstd.storing 3 (Entries.encode list), ⟨0, 0⟩⟩)])]
  nextId := 1

theorem wellFormed_singleBlock (list : List Bytes) : (singleBlock list).WellFormed := by
  have hplace : ∀ topic place, (singleBlock list).places.lookup topic = some place →
      ∃ item, place = .folder [("00000000000000000000.20200101000000", item)] := by
    intro topic place hlookup
    by_cases htopic : topic = "t"
    · subst htopic
      exact ⟨_, (Option.some.inj hlookup).symm⟩
    · rw [singleBlock, List.lookup_cons, beq_false_of_ne htopic] at hlookup
      cases hlookup
  refine ⟨fun topic parent hlookup => ?_, fun topic items hlookup => ?_⟩
  · obtain ⟨item, hfolder⟩ := hplace topic _ hlookup
    cases hfolder
  · obtain ⟨item, hfolder⟩ := hplace topic _ hlookup
    obtain rfl := Place.folder.inj hfolder
    exact List.pairwise_singleton _ _

theorem ofDirectory_singleBlock
    (hfits : (Block.framed Zstd.storing 3 (Entries.encode list)).header.Fits) :
    StoredLog.ofDirectory "t" ((singleBlock list).directory "t") = .ok ⟨{
      topic := "t"
      segments := [⟨"00000000000000000000.20200101000000", 0⟩]
      maxOffset := (Block.framedBytes Zstd.storing 3 (Entries.encode list)).length },
        (singleBlock list).directory "t"⟩ := by
  have hsegment : Segment.ofName "00000000000000000000.20200101000000" =
      .ok ⟨"00000000000000000000.20200101000000", 0⟩ := by decide +kernel
  simp [StoredLog.ofDirectory, StoredLog.reload, StoredLog.scan, singleBlock, Volume.directory,
    Directory.listing, Directory.items, Directory.absent, Items.files, Except.mapError, bind,
    Except.bind, pure, Except.pure, hsegment, Decimal.mod_eq (Block.length_framedBytes_le hfits)]

/-- The entries of that topic are those of the block. -/
theorem reads_singleBlock
    (hfits : (Block.framed Zstd.storing 3 (Entries.encode list)).header.Fits)
    (hopen : StoredLog.ofDirectory "t" ((singleBlock list).directory "t") = .ok stored) :
    stored.entries = (list, .ok true) ∧
      stored.checksum = .ok {
        digest := Sha512.digest list.flatten
        entries := list.length
        bytes := (Block.framedBytes Zstd.storing 3 (Entries.encode list)).length } := by
  have hnumbered := StoredLog.numbered_of_ofDirectory hopen
  rw [ofDirectory_singleBlock hfits, Except.ok.injEq] at hopen
  subst hopen
  have hfile : ((singleBlock list).directory "t").file "00000000000000000000.20200101000000" =
      .ok ⟨0, Block.framedBytes Zstd.storing 3 (Entries.encode list), ⟨0, 0⟩⟩ := by
    have hname : SegmentName.offset "00000000000000000000.20200101000000" = .ok 0 := by
      decide +kernel
    refine Directory.file_of_mem_files (List.pairwise_singleton _ _) hname ?_
    simp [Directory.files, Directory.entries, singleBlock, Volume.directory, Items.files]
  have hall : ∀ raw ∈ [Entries.encode list], (Block.framed Zstd.storing 3 raw).header.Fits :=
    List.forall_mem_singleton.mpr hfits
  have hnone : Block.read [] = (.ok none, []) := rfl
  have hread := Block.readAll_framedBytes_append Zstd.lossless_storing hall hnone
  have hentries := Block.entries_framed hfits
  have hreads := StoredLog.reads_last hnumbered rfl rfl hfile (Nat.zero_add _)
    (by simpa using hread) (by simp [hentries]) (by simp [Block.length_framedBytes])
  simpa [hentries, Checksum.ofBlocks] using hreads

/-- Blocks of equal size are not told apart if their entries are as many and the same bytes in a
    row. -/
theorem run_singleBlock
    (hfits : (Block.framed Zstd.storing 3 (Entries.encode list)).header.Fits)
    (hother : (Block.framed Zstd.storing 3 (Entries.encode other)).header.Fits)
    (hlength : list.length = other.length) (hflatten : list.flatten = other.flatten)
    (hbytes : (Block.framedBytes Zstd.storing 3 (Entries.encode list)).length =
      (Block.framedBytes Zstd.storing 3 (Entries.encode other)).length) :
    (run { volume := singleBlock list } { volume := singleBlock other }).2 = .ok () := by
  refine run_eq_ok_iff_of_volumes.mpr ⟨fun topic => Iff.rfl, fun topic hmem => ?_⟩
  obtain rfl : topic = "t" := List.mem_singleton.mp hmem
  have hleft := ofDirectory_singleBlock hfits
  have hright := ofDirectory_singleBlock hother
  refine ⟨by decide +kernel, _, _, _, hleft, hright, (reads_singleBlock hfits hleft).2, ?_⟩
  rw [(reads_singleBlock hother hright).2, hlength, hflatten, hbytes]

/-- The entries "ab", "c" and the entries "a", "bc" are not told apart, as they are one stream of
    bytes. -/
theorem run_ok_of_moved_boundary :
    ∃ left right first second lefts rights,
      (run { volume := left } { volume := right }).2 = .ok () ∧ "t" ∈ left.topics ∧
        StoredLog.ofDirectory "t" (left.directory "t") = .ok first ∧
        StoredLog.ofDirectory "t" (right.directory "t") = .ok second ∧
        first.entries = (lefts, .ok true) ∧ second.entries = (rights, .ok true) ∧
        lefts ≠ rights ∧ lefts.flatten = rights.flatten := by
  have hfits : (Block.framed Zstd.storing 3 (Entries.encode [[0x61, 0x62], [0x63]])).header.Fits :=
    ⟨by decide +kernel, by decide +kernel⟩
  have hother : (Block.framed Zstd.storing 3 (Entries.encode [[0x61], [0x62, 0x63]])).header.Fits :=
    ⟨by decide +kernel, by decide +kernel⟩
  have hleft := ofDirectory_singleBlock hfits
  have hright := ofDirectory_singleBlock hother
  exact ⟨_, _, _, _, _, _, run_singleBlock hfits hother rfl rfl (by decide +kernel),
    List.mem_singleton_self _, hleft, hright, (reads_singleBlock hfits hleft).1,
    (reads_singleBlock hother hright).1, by decide, rfl⟩

/-- What is the same in them. -/
theorem matching_of_moved_boundary :
    (singleBlock [[0x61, 0x62], [0x63]]).WellFormed ∧ (singleBlock [[0x61], [0x62, 0x63]]).WellFormed ∧
    ∃ first second,
      StoredLog.ofDirectory "t" ((singleBlock [[0x61, 0x62], [0x63]]).directory "t") = .ok first ∧
      StoredLog.ofDirectory "t" ((singleBlock [[0x61], [0x62, 0x63]]).directory "t") = .ok second ∧
      ∃ lefts rights, Matching first second lefts rights := by
  have hrun : (run { volume := singleBlock [[0x61, 0x62], [0x63]] }
      { volume := singleBlock [[0x61], [0x62, 0x63]] }).2 = .ok () :=
    run_singleBlock ⟨by decide +kernel, by decide +kernel⟩ ⟨by decide +kernel, by decide +kernel⟩ rfl
      rfl (by decide +kernel)
  have hleft := wellFormed_singleBlock [[0x61, 0x62], [0x63]]
  have hright := wellFormed_singleBlock [[0x61], [0x62, 0x63]]
  obtain ⟨-, hall⟩ := (run_ok_iff_matching hleft hright).1.mp hrun
  exact ⟨hleft, hright, (hall "t" (List.mem_singleton_self _)).2⟩

end SingleBlock

end Check

end ReplicatedLog
