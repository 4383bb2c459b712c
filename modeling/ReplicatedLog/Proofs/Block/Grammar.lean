import ReplicatedLog.Proofs.Block.Entries
import ReplicatedLog.Proofs.Wire.Spelling

namespace ReplicatedLog

namespace Entries

/-- Entries in a row, each behind its length in any of the forms of that number. -/
inductive Row : Bytes → List Bytes → Prop
  | nil : Row [] []
  | cons {groups entry row : Bytes} {entries : List Bytes}
      (hlength : Varint.Form groups entry.length) (hrow : Row row entries) :
    Row (groups ++ (entry ++ row)) (entry :: entries)

/-- Bytes that start with no entry, and what is wrong with them. -/
inductive Blocked : Bytes → Corruption → Prop
  | unfinished {bytes : Bytes} (hend : Varint.Unfinished bytes) :
    Blocked bytes (.entryLength (.truncated .varint))
  | overflow {bytes : Bytes} (hnone : ¬ ∃ count number, Varint.Spells bytes count number)
      (hmore : ¬ Varint.Unfinished bytes) :
    Blocked bytes (.entryLength .varintOverflow)
  | overrun {bytes : Bytes} {count number : Nat} (hspells : Varint.Spells bytes count number)
      (hshort : (bytes.drop count).length < number) :
    Blocked bytes (.entryOverrun number (bytes.drop count).length)

/-- What one gets who asks for the next entry until there is none. -/
inductive Yields : Bytes → List (Except Fault Bytes) → Prop
  | done {rest : Bytes} (hnext : next rest = (none, rest)) : Yields rest []
  | item {rest left : Bytes} {item : Except Fault Bytes} {items : List (Except Fault Bytes)}
      (hnext : next rest = (some item, left)) (hleft : Yields left items) : Yields rest (item :: items)

variable {bytes data groups entry row rest : Bytes} {entries : List Bytes} {cause : Corruption}

theorem next_nil : next [] = (none, []) :=
  rfl

theorem next_of_error {fault : WireFault} (hsome : bytes ≠ [])
    (hread : (Varint.decode bytes).1 = .error fault) :
    next bytes = (some (.error (.corruption (.entryLength fault))), []) := by
  rw [next, if_neg (by rwa [List.isEmpty_iff])]
  obtain ⟨outcome, rest, hpair⟩ : ∃ outcome rest, Varint.decode bytes = (outcome, rest) := ⟨_, _, rfl⟩
  rw [hpair] at hread ⊢
  dsimp only at hread
  rw [hread]

theorem next_blocked (hblocked : Blocked bytes cause) (hsome : bytes ≠ []) :
    next bytes = (some (.error (.corruption cause)), []) := by
  cases hblocked with
  | unfinished hend => exact next_of_error hsome (Varint.decode_truncated_iff.mpr hend)
  | overflow hnone hmore => exact next_of_error hsome (Varint.decode_overflow_iff.mpr ⟨hnone, hmore⟩)
  | @overrun count number hspells hshort =>
    rw [next, if_neg (by rwa [List.isEmpty_iff]),
      Varint.decode_eq_ok_iff_spells.mpr ⟨count, rfl, hspells⟩]
    dsimp only
    rw [if_pos hshort]

/-- Bytes start with an entry behind a form of its length, or something is wrong with them. -/
theorem exists_entry_or_blocked (bytes : Bytes) :
    (∃ groups entry rest, bytes = groups ++ (entry ++ rest) ∧ Varint.Form groups entry.length) ∨
      ∃ cause, Blocked bytes cause := by
  by_cases hend : Varint.Unfinished bytes
  · exact .inr ⟨_, .unfinished hend⟩
  by_cases hspelled : ∃ count number, Varint.Spells bytes count number
  · obtain ⟨count, number, hspells⟩ := hspelled
    rcases Nat.lt_or_ge (bytes.drop count).length number with hshort | henough
    · exact .inr ⟨_, .overrun hspells hshort⟩
    · refine .inl ⟨bytes.take count, (bytes.drop count).take number, (bytes.drop count).drop number, ?_, ?_⟩
      · rw [List.take_append_drop, List.take_append_drop]
      · rw [List.length_take_of_le henough]
        exact hspells.form
  · exact .inr ⟨_, .overflow hspelled hend⟩

theorem decode_blocked (hblocked : Blocked bytes cause) :
    decode bytes = ([], if bytes = [] then none else some (.corruption cause)) := by
  by_cases hnil : bytes = []
  · rw [hnil, decode_nil, if_pos rfl]
  · rw [decode_eq_next, next_blocked hblocked hnil, if_neg hnil]

/-- The entries of a row are decoded, and what is behind it is blamed. -/
theorem Row.decode_append (hrow : Row row entries) (hblocked : Blocked rest cause) :
    decode (row ++ rest) = (entries, if rest = [] then none else some (.corruption cause)) := by
  induction hrow with
  | nil => exact decode_blocked hblocked
  | cons hlength _ ih => rw [List.append_assoc, List.append_assoc, decode_form_append hlength, ih]

/-- All bytes are a row and something behind it that starts with no entry. -/
theorem exists_row (data : Bytes) :
    ∃ row rest entries cause, data = row ++ rest ∧ Row row entries ∧ Blocked rest cause := by
  induction hsize : data.length using Nat.strong_induction_on generalizing data with
  | _ size ih =>
    rcases exists_entry_or_blocked data with ⟨groups, entry, behind, rfl, hlength⟩ | ⟨cause, hblocked⟩
    · have hshorter : behind.length < size := by
        have hpos := hlength.made.length_pos
        simp only [List.length_append] at hsize
        omega
      obtain ⟨row, rest, entries, cause, rfl, hrow, hblocked⟩ := ih _ hshorter behind rfl
      refine ⟨groups ++ (entry ++ row), rest, entry :: entries, cause, ?_, .cons hlength hrow, hblocked⟩
      rw [List.append_assoc, List.append_assoc]
    · exact ⟨[], data, [], cause, rfl, .nil, hblocked⟩

theorem yields_blocked (hblocked : Blocked bytes cause) :
    Yields bytes ((decode bytes).2.toList.map .error) := by
  by_cases hnil : bytes = []
  · subst hnil
    rw [decode_nil]
    exact .done next_nil
  · rw [decode_blocked hblocked, if_neg hnil]
    exact .item (next_blocked hblocked hnil) (.done next_nil)

/-- One gets the entries that are decoded and then their fault. -/
theorem yields_decode (data : Bytes) :
    Yields data ((decode data).1.map .ok ++ (decode data).2.toList.map .error) := by
  obtain ⟨row, rest, entries, cause, rfl, hrow, hblocked⟩ := exists_row data
  induction hrow with
  | nil =>
    have hyields := yields_blocked hblocked
    rw [decode_blocked hblocked] at hyields
    rw [List.nil_append, decode_blocked hblocked]
    exact hyields
  | cons hlength _ ih =>
    rw [List.append_assoc, List.append_assoc, decode_form_append hlength]
    exact .item (next_form_append hlength _) ih

theorem Yields.unique {items others : List (Except Fault Bytes)} (hitems : Yields bytes items)
    (hothers : Yields bytes others) : items = others := by
  induction hitems generalizing others with
  | done hnext =>
    cases hothers with
    | done => rfl
    | item hother =>
      rw [hnext] at hother
      cases hother
  | item hnext _ ih =>
    cases hothers with
    | done hother =>
      rw [hnext] at hother
      cases hother
    | item hother hleft =>
      rw [hnext] at hother
      cases hother
      rw [ih hleft]

/-- A row is no shorter than what is written for its entries. -/
theorem Row.length_encode_le (hrow : Row row entries) : (encode entries).length ≤ row.length := by
  induction hrow with
  | nil => exact Nat.le_refl 0
  | cons hlength _ ih =>
    have hshortest := hlength.made.length_le
    rw [encode, List.flatMap_cons, ← encode]
    simp only [encodeOne, List.length_append, Varint.length_encode]
    omega

/-- Each entry ends where its length says, so that the bytes of a row tell where to cut. -/
theorem encode_injective : Function.Injective encode := by
  intro list others hsame
  induction list generalizing others with
  | nil =>
    cases others with
    | nil => rfl
    | cons other rest => exact absurd hsame.symm (encode_ne_nil (List.cons_ne_nil other rest))
  | cons entry list ih =>
    cases others with
    | nil => exact absurd hsame (encode_ne_nil (List.cons_ne_nil entry list))
    | cons other rest =>
      simp only [encode, List.flatMap_cons, encodeOne, List.append_assoc] at hsame
      obtain ⟨-, hlength, hbehind⟩ := (Varint.groups_encode entry.length).append_inj
        (Varint.groups_encode other.length) hsame
      obtain ⟨rfl, htail⟩ := List.append_inj hbehind hlength
      rw [ih htail]

/-- Asking for one entry after the other comes to an end for all bytes. It gives those of a row at the
    front of the bytes, and behind them one fault unless nothing is left, for what is left starts with no
    entry. Entries that are written are given back, no others are written alike, and nothing shorter holds
    them. -/
theorem decode_parses :
    (∀ data items, Yields data items ↔
      items = (decode data).1.map .ok ++ (decode data).2.toList.map .error) ∧
    (∀ data, ∃ row rest cause, data = row ++ rest ∧ Row row (decode data).1 ∧ Blocked rest cause ∧
      (decode data).2 = if rest = [] then none else some (.corruption cause)) ∧
    (∀ row rest entries cause, Row row entries → Blocked rest cause →
      decode (row ++ rest) = (entries, if rest = [] then none else some (.corruption cause))) ∧
    (∀ entries, (∀ entry ∈ entries, entry.length < 2 ^ 64) → decode (encode entries) = (entries, none)) ∧
    Function.Injective encode ∧
    (∀ data entries, decode data = (entries, none) → (encode entries).length ≤ data.length) := by
  have hsplit : ∀ data, ∃ row rest cause, data = row ++ rest ∧ Row row (decode data).1 ∧
      Blocked rest cause ∧ (decode data).2 = if rest = [] then none else some (.corruption cause) := by
    intro data
    obtain ⟨row, rest, entries, cause, rfl, hrow, hblocked⟩ := exists_row data
    have hdecode := hrow.decode_append hblocked
    exact ⟨row, rest, cause, rfl, hdecode ▸ hrow, hblocked, congrArg Prod.snd hdecode⟩
  refine ⟨?_, hsplit, fun _ _ _ _ hrow hblocked => hrow.decode_append hblocked, ?_, encode_injective, ?_⟩
  · intro data items
    constructor
    · intro hitems
      exact hitems.unique (yields_decode data)
    · rintro rfl
      exact yields_decode data
  · intro entries hfits
    exact decode_encode_of_short fun entry hmem => Decimal.le_maxValue_iff.mpr (hfits entry hmem)
  · intro data entries hdecode
    obtain ⟨row, rest, _, hdata, hrow, -, -⟩ := hsplit data
    rw [hdecode] at hrow
    have hshortest : (encode entries).length ≤ row.length := hrow.length_encode_le
    rw [hdata, List.length_append]
    omega

/-- An empty entry behind a length of two bytes, an entry of one byte, and a length of five bytes with
    two behind it. -/
theorem decode_parses_overrun :
    let data : Bytes := [0x80, 0x00, 0x01, 0x61, 0x05, 0x62, 0x63]
    (Row [0x80, 0x00, 0x01, 0x61] [[], [0x61]] ∧ Blocked [0x05, 0x62, 0x63] (.entryOverrun 5 2) ∧
      decode data = ([[], [0x61]], some (.corruption (.entryOverrun 5 2)))) ∧
    (Yields data [.ok [], .ok [0x61], .error (.corruption (.entryOverrun 5 2))]) ∧
    ((∀ entry ∈ ([[], [0x61]] : List Bytes), entry.length < 2 ^ 64) ∧
      decode (encode [[], [0x61]]) = ([[], [0x61]], none)) ∧
    (decode [0x80, 0x00] = ([[]], none) ∧ (encode [[]]).length ≤ 2) := by
  intro data
  obtain ⟨hyields, -, hparsed, hwritten, -, hshortest⟩ := decode_parses
  have hlast : Varint.Form [0x01] 1 := ⟨.last (by decide), by decide, by decide⟩
  have hlong : Varint.Form [0x80, 0x00] 0 :=
    ⟨.more (by decide) (.last (by decide)), by decide, by decide⟩
  have hrow : Row ([0x80, 0x00] ++ ([] ++ ([0x01] ++ ([0x61] ++ [])))) [[], [0x61]] :=
    .cons hlong (.cons hlast .nil)
  have hspells : Varint.Spells [0x05, 0x62, 0x63] 1 5 :=
    ⟨by decide, by decide, by simp, ⟨0x05, rfl, by decide⟩, rfl, by decide⟩
  have hblocked : Blocked [0x05, 0x62, 0x63] (.entryOverrun 5 2) := .overrun hspells (by decide)
  have hdecode := hparsed _ _ _ _ hrow hblocked
  have hsmall : ∀ entry ∈ ([[], [0x61]] : List Bytes), entry.length < 2 ^ 64 := by decide
  have hempty := hparsed ([0x80, 0x00] ++ ([] ++ [])) [] [[]] _ (.cons hlong .nil)
    (.unfinished ⟨by decide, by simp⟩)
  refine ⟨⟨hrow, hblocked, hdecode⟩, (hyields data _).mpr ?_, ⟨hsmall, hwritten _ hsmall⟩, hempty,
    hshortest _ _ hempty⟩
  rw [show decode data = _ from hdecode]
  rfl

end Entries

end ReplicatedLog
