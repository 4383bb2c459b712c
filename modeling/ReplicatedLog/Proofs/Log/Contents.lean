import ReplicatedLog.Log.Contents
import ReplicatedLog.Proofs.Block.Stream
import ReplicatedLog.Proofs.Log.Discerning
import ReplicatedLog.Proofs.Log.History

namespace ReplicatedLog

/-- Files are read back to back, from a place in the first one. -/
theorem chain_eq {dir : Directory} {parts : List Part} {position : Nat}
    (hfiles : ∀ part ∈ parts, dir.file part.segment.name = .ok part.file)
    (hposition : ∀ part ∈ parts.head?, position ≤ part.file.bytes.length) (budget : Nat) :
    chain dir (parts.map (·.segment)) position budget =
      (((Part.contents parts).drop position).take budget, none) := by
  induction parts generalizing position budget with
  | nil => simp [chain]
  | cons part rest ih =>
    have hfile := hfiles part List.mem_cons_self
    have hinside : position ≤ part.file.bytes.length := hposition part rfl
    rw [List.map_cons, chain]
    by_cases hbudget : budget = 0
    · rw [if_pos hbudget, hbudget, List.take_zero]
    · have hrest := ih (fun other hmem => hfiles other (List.mem_cons_of_mem _ hmem))
        (fun _ _ => Nat.zero_le _) (budget - ((part.file.bytes.drop position).take budget).length)
      have hleft : budget - ((part.file.bytes.drop position).take budget).length =
          budget - (part.file.bytes.drop position).length := by
        rw [List.length_take]
        omega
      rw [if_neg hbudget, hfile]
      dsimp only
      rw [hrest, hleft, List.drop_zero, Part.contents_cons, List.drop_append_of_le_length hinside,
        List.take_append]

namespace Cursor

variable {stored : StoredLog} {cursor : Cursor} {history : Bytes}

/-- A cursor whose list of segments is an end part of that of the log, and which stands in the first
    of them. -/
inductive Stands (cursor : Cursor) (log : TopicLog) : Prop
  | intro (passed : List Segment) (current : Segment) (rest : List Segment)
      (hsegments : log.segments = passed ++ current :: rest)
      (hcursor : cursor.segments = current :: rest)
      (hposition : cursor.offset = current.offset + cursor.position)
      (hoffset : cursor.offset ≤ segmentEnd (current :: rest) log.maxOffset)

/-- Behind a cursor that stands in a segment of the log, the bytes of the log follow. -/
theorem Stands.remaining_eq (hstands : cursor.Stands stored.log) (hkeeps : stored.Keeps history)
    (hmax : cursor.maxOffset = stored.log.maxOffset) :
    cursor.remaining stored.dir = (history.drop cursor.offset, none) := by
  obtain ⟨hlength, parts, hlaid, hcontents⟩ := hkeeps
  obtain ⟨passed, current, rest, hlog, hcursor, hposition, hoffset⟩ := hstands
  obtain ⟨front, part, back, rfl, rfl, rfl, rfl⟩ := hlaid.exists_split hlog
  have hstart := hlaid.chained.offset_of_split
  rw [hlaid.chained.segmentEnd_eq] at hoffset
  have hinside : cursor.position ≤ part.file.bytes.length := by omega
  have hback : ∀ other ∈ part :: back, stored.dir.file other.segment.name = .ok other.file := by
    intro other hmem
    have hother : other ∈ front ++ part :: back := List.mem_append_right _ hmem
    exact hlaid.sound.file_of_mem (hlaid.named other hother) (hlaid.mem_files hother)
  have hfirst : ∀ other ∈ (part :: back).head?, cursor.position ≤ other.file.bytes.length :=
    fun other hhead => Option.mem_some_iff.mp hhead ▸ hinside
  have hchain := chain_eq hback hfirst (cursor.maxOffset - cursor.offset)
  have hplace : cursor.offset =
      stored.log.firstOffset + ((Part.contents front).length + cursor.position) := by omega
  have hdata : history.drop cursor.offset =
      (Part.contents (part :: back)).drop cursor.position := by
    rw [hplace, ← List.drop_drop, ← hcontents, Part.contents_append, List.drop_length_add_append]
  have hall : (history.drop cursor.offset).length ≤ cursor.maxOffset - cursor.offset := by
    rw [List.length_drop, hmax, hlength]
  rw [← hdata, List.take_of_length_le hall] at hchain
  rw [remaining, hcursor]
  exact hchain

/-- Behind a cursor at the end of the log nothing follows, whatever segments it knows. -/
theorem remaining_of_end (hend : cursor.maxOffset ≤ cursor.offset) (dir : Directory) :
    cursor.remaining dir = ([], none) := by
  rw [remaining, Nat.sub_eq_zero_of_le hend]
  cases cursor.segments with
  | nil => rfl
  | cons current rest => rw [chain, if_pos rfl]

/-- Behind a cursor whose segments are all in the log, the bytes of the log follow. -/
theorem remaining_eq (hkeeps : stored.Keeps history) (hfollows : cursor.Follows stored.log)
    (hsegments : cursor.segments <:+ stored.log.segments) :
    cursor.remaining stored.dir = (history.drop cursor.offset, none) := by
  have hmax := hfollows.maxOffset_eq
  cases hfollows with
  | reading passed current rest hlog hcursor hposition hboundary hoffset _ =>
    have hstands : cursor.Stands stored.log :=
      .intro passed current rest hlog hcursor hposition (hboundary ▸ hoffset)
    exact hstands.remaining_eq hkeeps hmax
  | waiting gone hcursor hoffset _ _ hnone _ _ =>
    have hgone : gone = [] := by
      have hle := hsegments.length_le
      rw [hcursor, List.length_append] at hle
      exact List.eq_nil_of_length_eq_zero (by omega)
    have hend : cursor.offset = stored.log.maxOffset :=
      hoffset.trans (TopicLog.firstOffset_of_nil (hnone hgone))
    rw [remaining_of_end (hmax.trans hend.symm).le, hend, ← hkeeps.1, List.drop_length]

end Cursor

namespace Block

variable {bytes rest : Bytes} {blocks : List Block}

/-- Keeps the entries that are shown, the last one first. -/
def collect (entries : List Bytes) (entry : Bytes) : Except Fault (List Bytes) :=
  .ok (entry :: entries)

theorem visitEntries_collect (list entries : List Bytes) :
    visitEntries collect list entries = (.ok (), list.reverse ++ entries) := by
  induction list generalizing entries with
  | nil => rfl
  | cons first others ih =>
    rw [visitEntries, collect]
    dsimp only
    rw [ih, List.reverse_cons, List.append_assoc]
    rfl

theorem visitAll_of_error {σ : Type} {visit : σ → Bytes → Except Fault σ} {once : Bool}
    {missing : Option IoFault} {state : σ} {fault : Fault} (hread : read bytes = (.error fault, rest)) :
    visitAll visit once missing bytes state = (.error fault, state) := by
  rw [visitAll.eq_def]
  split
  next hother =>
    rw [hread] at hother
    rw [Except.error.inj (Prod.mk.inj hother).1]
  next hother => simp [hread] at hother
  next hother => simp [hread] at hother

theorem visitAll_of_none {σ : Type} {visit : σ → Bytes → Except Fault σ} {once : Bool}
    {missing : Option IoFault} {state : σ} (hread : read bytes = (.ok none, rest)) :
    visitAll visit once missing bytes state =
      (missing.elim (.ok 0) fun fault => .error (.io fault), state) := by
  rw [visitAll.eq_def]
  split
  next hother => simp [hread] at hother
  next => cases missing <;> rfl
  next hother => simp [hread] at hother

/-- All entries of a block are collected before the next block is read, unless it has a flaw. -/
theorem visitAll_collect_of_block {block : Block} {missing : Option IoFault}
    (hread : read bytes = (.ok (some block), rest)) (entries : List Bytes) :
    visitAll collect false missing bytes entries =
      match block.entries.2 with
      | some flaw => (.error flaw, block.entries.1.reverse ++ entries)
      | none =>
        let (count, entries) := visitAll collect false missing rest
          (block.entries.1.reverse ++ entries)
        (count.map (block.frameLength + ·), entries) := by
  rw [visitAll.eq_def]
  split
  next hother => simp [hread] at hother
  next hother => simp [hread] at hother
  next found others hother =>
    rw [hread] at hother
    obtain ⟨hsame, rfl⟩ := Prod.mk.inj hother
    obtain rfl := Option.some.inj (Except.ok.inj hsame)
    simp only [visitEntries_collect]
    cases block.entries.2 <;> rfl

/-- Of blocks without a fault all entries are collected, and their lengths are counted. -/
theorem visitAll_collect (hread : readAll bytes = (blocks, none, rest))
    (hwhole : ∀ block ∈ blocks, block.entries.2 = none) (entries : List Bytes) :
    visitAll collect false none bytes entries =
      (.ok (blocks.map frameLength).sum,
        (blocks.flatMap fun block => block.entries.1).reverse ++ entries) := by
  fun_induction readAll bytes generalizing blocks entries with
  | case1 bytes fault behind hfirst => simp at hread
  | case2 bytes behind hfirst =>
    obtain ⟨rfl, -⟩ := Prod.mk.inj hread
    exact visitAll_of_none hfirst
  | case3 bytes block behind hfirst _ others fault tail hothers ih =>
    obtain ⟨rfl, htail⟩ := Prod.mk.inj hread
    obtain ⟨rfl, rfl⟩ := Prod.mk.inj htail
    rw [visitAll_collect_of_block hfirst, hwhole block List.mem_cons_self,
      ih hothers (fun other hmem => hwhole other (List.mem_cons_of_mem _ hmem)), List.flatMap_cons,
      List.reverse_append, List.append_assoc, List.map_cons, List.sum_cons]
    rfl

/-- The blocks in a row are no longer together than the bytes that hold them. -/
theorem sum_frameLength_le {fault : Option Fault} (hread : readAll bytes = (blocks, fault, rest)) :
    (blocks.map frameLength).sum ≤ bytes.length := by
  fun_induction readAll bytes generalizing blocks with
  | case1 bytes found behind hfirst =>
    obtain ⟨rfl, -⟩ := Prod.mk.inj hread
    exact Nat.zero_le _
  | case2 bytes behind hfirst =>
    obtain ⟨rfl, -⟩ := Prod.mk.inj hread
    exact Nat.zero_le _
  | case3 bytes block behind hfirst _ others found tail hothers ih =>
    obtain ⟨rfl, htail⟩ := Prod.mk.inj hread
    obtain ⟨rfl, rfl⟩ := Prod.mk.inj htail
    have hblock := frameLength_add_length_le hfirst
    have hrest := ih hothers
    rw [List.map_cons, List.sum_cons]
    omega

/-- Entries that were collected to the end are those of whole blocks, and no bytes were missing. -/
theorem exists_of_visitAll_collect {missing : Option IoFault} {entries list : List Bytes}
    {count : Nat} (hvisit : visitAll collect false missing bytes entries = (.ok count, list)) :
    missing = none ∧ ∃ blocks rest, readAll bytes = (blocks, none, rest) ∧
      (∀ block ∈ blocks, block.entries.2 = none) ∧ count = (blocks.map frameLength).sum ∧
      list = (blocks.flatMap fun block => block.entries.1).reverse ++ entries := by
  fun_induction readAll bytes generalizing entries count list with
  | case1 bytes fault behind hfirst =>
    rw [visitAll_of_error hfirst] at hvisit
    cases hvisit
  | case2 bytes behind hfirst =>
    rw [visitAll_of_none hfirst] at hvisit
    cases missing with
    | some fault => cases hvisit
    | none =>
      obtain ⟨hcount, rfl⟩ := Prod.mk.inj hvisit
      obtain rfl := Except.ok.inj hcount
      exact ⟨rfl, [], behind, rfl, by simp, rfl, rfl⟩
  | case3 bytes block behind hfirst _ others fault tail hothers ih =>
    rw [visitAll_collect_of_block hfirst] at hvisit
    cases hflaw : block.entries.2 with
    | some flaw =>
      rw [hflaw] at hvisit
      cases hvisit
    | none =>
      rw [hflaw] at hvisit
      rcases hmore : visitAll collect false missing behind (block.entries.1.reverse ++ entries) with
        ⟨_ | more, last⟩
      · rw [hmore] at hvisit
        cases hvisit
      · rw [hmore] at hvisit
        obtain ⟨hcount, rfl⟩ := Prod.mk.inj hvisit
        obtain rfl := Except.ok.inj hcount
        obtain ⟨rfl, found, left, hfound, hwhole, rfl, rfl⟩ := ih hmore
        obtain ⟨rfl, htail⟩ := Prod.mk.inj (hothers.symm.trans hfound)
        obtain ⟨rfl, rfl⟩ := Prod.mk.inj htail
        refine ⟨rfl, block :: others, tail, rfl, ?_, by simp, by simp⟩
        exact List.forall_mem_cons.mpr ⟨hflaw, hwhole⟩

end Block

namespace StoredLog

variable {stored : StoredLog} {history rest : Bytes} {blocks : List Block}

/-- Who reads a log from its start is shown the entries of all its blocks. -/
theorem Keeps.visit_from_start (hkeeps : stored.Keeps history) (hfirst : stored.log.firstOffset = 0)
    (hread : Block.readAll history = (blocks, none, rest))
    (hwhole : ∀ block ∈ blocks, block.entries.2 = none) :
    ∃ cursor, Cursor.place stored.log.segments stored.log.maxOffset 0 = .ok cursor ∧
      cursor.visitEntries stored.dir Block.collect false [] =
        (.ok (blocks.map Block.frameLength).sum,
          (blocks.flatMap fun block => block.entries.1).reverse) := by
  obtain ⟨cursor, hplace⟩ := Cursor.exists_place hfirst.le (Nat.zero_le stored.log.maxOffset)
  obtain ⟨hfollows, hoffset⟩ := Cursor.follows_of_place hplace
  have hremaining := Cursor.remaining_eq hkeeps hfollows (Cursor.segments_of_place hplace)
  rw [hoffset, List.drop_zero] at hremaining
  refine ⟨cursor, hplace, ?_⟩
  rw [Cursor.visitEntries, hremaining]
  dsimp only
  rw [Block.visitAll_collect hread hwhole, List.append_nil]

end StoredLog

end ReplicatedLog
