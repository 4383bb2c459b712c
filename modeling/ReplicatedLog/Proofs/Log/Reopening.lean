import ReplicatedLog.Proofs.Log.History
import ReplicatedLog.Proofs.Log.Readers

namespace ReplicatedLog.StoredLog

/-- What is found of a log on disk: all that it had, or nothing where no segment is left. -/
def Remains (stored : StoredLog) (first : Nat) (history : Bytes) : Prop :=
  stored.Keeps history ∧ stored.log.firstOffset = first ∨
    stored.Keeps [] ∧ stored.log.segments = [] ∧ first = history.length

variable {stored : StoredLog} {history : Bytes} {first offset : Nat} {now : Instant}

/-- Who opens the directory of a log finds what remains of it, and nobody who reads it. -/
theorem Keeps.remains (hkeeps : stored.Keeps history) (topic : String) :
    ∃ second, StoredLog.ofDirectory topic stored.dir = .ok second ∧
      second.Remains stored.log.firstOffset history ∧ second.log.readers = [] := by
  obtain ⟨hlength, parts, hlaid, -⟩ := id hkeeps
  refine ⟨_, hlaid.ofDirectory_eq topic, ?_, rfl⟩
  by_cases hempty : stored.log.segments = []
  · have hparts : parts = [] := List.map_eq_nil_iff.mp (hlaid.segments ▸ hempty)
    subst hparts
    refine Or.inr ⟨⟨?_, [], ?_, List.drop_nil.symm⟩, hempty, ?_⟩
    · exact (if_pos hempty).symm
    · refine ⟨hlaid.sound, hlaid.files, hempty, nofun, ?_, ?_, nofun⟩
      · simp [TopicLog.firstOffset, hempty, Part.Chained]
      · simp [hempty]
    · rw [hlength, TopicLog.firstOffset_of_nil hempty]
  · obtain ⟨second, hopen, hsecond, -, -, hfirst⟩ :=
      hkeeps.ofDirectory (fun hnil => absurd hnil hempty) topic
    obtain rfl := Except.ok.inj ((hlaid.ofDirectory_eq topic).symm.trans hopen)
    exact Or.inl ⟨hsecond, hfirst⟩

/-- An offset of a log that remains gives its length back where that is lost. -/
theorem Remains.resumeAt (hremains : stored.Remains first history) (hnow : now.InCalendar)
    (hfits : history.length ≤ Decimal.maxValue) (hfirst : first ≤ offset)
    (hlast : offset ≤ history.length) :
    ∃ after, stored.resumeAt offset now = (.ok (), after) ∧ after.Keeps history ∧
      after.log.firstOffset = first ∧ after.log.topic = stored.log.topic ∧
      (stored.log.readers = [] → after.log.readers = []) ∧
      stored.dir.nextId ≤ after.dir.nextId := by
  rcases hremains with ⟨hkeeps, hstart⟩ | ⟨hkeeps, hempty, rfl⟩
  · exact ⟨stored, if_pos (Or.inr (hlast.trans hkeeps.1.le)), hkeeps, hstart, rfl, id, le_rfl⟩
  · obtain rfl := le_antisymm hlast hfirst
    obtain ⟨hzero, parts, hlaid, -⟩ := id hkeeps
    obtain rfl : parts = [] := List.map_eq_nil_iff.mp (hlaid.segments ▸ hempty)
    have hend : stored.log.maxOffset = 0 := hzero.symm
    rcases Nat.eq_zero_or_pos history.length with hnone | hsome
    · obtain rfl := List.length_eq_zero_iff.mp hnone
      exact ⟨stored, if_pos (Or.inr (Nat.zero_le _)), hkeeps,
        (TopicLog.firstOffset_of_nil hempty).trans hend, rfl, id, le_rfl⟩
    · obtain ⟨part, dir, hresume, hafter, hoffset, hbytes, hid⟩ :=
        hlaid.resumeAt_of_lt hnow hfits (hend.trans_lt hsome)
      refine ⟨_, hresume, ⟨hoffset.symm, [part], hafter, ?_⟩, hoffset, rfl, fun hnone => ?_, hid⟩
      · have hstart : (stored.log.startedAt part.segment).firstOffset = history.length := hoffset
        simp [hstart, hbytes]
      · simp [TopicLog.startedAt, TopicLog.mapCursors, hnone]

/-- A log goes on at any offset. One that has no segments and ends before the offset starts anew there,
    and what it had before does not matter any more. -/
theorem Keeps.resumeAt (hkeeps : stored.Keeps history) (hnow : now.InCalendar)
    (hfits : offset ≤ Decimal.maxValue) :
    stored.resumeAt offset now = (.ok (), stored) ∧
        (stored.log.segments = [] → offset ≤ stored.log.maxOffset) ∨
      ∃ segment dir, stored.resumeAt offset now = (.ok (), ⟨stored.log.startedAt segment, dir⟩) ∧
        Keeps ⟨stored.log.startedAt segment, dir⟩ (List.replicate offset 0) ∧
        stored.log.segments = [] ∧ segment.offset = offset ∧ stored.dir.nextId ≤ dir.nextId := by
  obtain ⟨-, parts, hlaid, -⟩ := id hkeeps
  by_cases hskip : stored.log.segments ≠ [] ∨ offset ≤ stored.log.maxOffset
  · exact Or.inl ⟨if_pos hskip, fun hempty => hskip.resolve_left (not_not.mpr hempty)⟩
  · obtain ⟨hsome, hlt⟩ := not_or.mp hskip
    have hempty := not_not.mp hsome
    obtain rfl : parts = [] := List.map_eq_nil_iff.mp (hlaid.segments ▸ hempty)
    obtain ⟨part, dir, hresume, hafter, rfl, hbytes, hid⟩ :=
      hlaid.resumeAt_of_lt hnow hfits (not_le.mp hlt)
    refine Or.inr ⟨part.segment, dir, hresume, ⟨List.length_replicate, [part], hafter, ?_⟩, hempty, rfl,
      hid⟩
    have hstart : (stored.log.startedAt part.segment).firstOffset = part.segment.offset := rfl
    simp [hstart, hbytes]

theorem Remains.first_le (hremains : stored.Remains first history) : first ≤ history.length := by
  rcases hremains with ⟨hkeeps, rfl⟩ | ⟨-, -, rfl⟩
  · exact hkeeps.firstOffset_le
  · exact le_rfl

/-- Without any offset to go on at a log remains only if it starts at zero, and then has its
    length. -/
theorem Remains.keeps_of_zero (hremains : stored.Remains 0 history) :
    stored.Keeps history ∧ stored.log.firstOffset = 0 := by
  rcases hremains with ⟨hkeeps, hstart⟩ | ⟨hkeeps, hempty, hzero⟩
  · exact ⟨hkeeps, hstart⟩
  · obtain rfl := List.length_eq_zero_iff.mp hzero.symm
    exact ⟨hkeeps, (TopicLog.firstOffset_of_nil hempty).trans hkeeps.1.symm⟩

end ReplicatedLog.StoredLog
