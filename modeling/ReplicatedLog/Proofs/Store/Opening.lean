import ReplicatedLog.Proofs.Log.History
import ReplicatedLog.Proofs.Log.Scanning
import ReplicatedLog.Proofs.Store.Current

namespace ReplicatedLog

theorem StoredLog.Same.keeps {stored other : StoredLog} {history : Bytes}
    (hsame : stored.Same other) (hkeeps : stored.Keeps history) : other.Keeps history := by
  obtain ⟨hlength, parts, hlaid, hcontents⟩ := hkeeps
  rw [← hsame.log] at hlength hcontents
  exact ⟨hlength, parts, hsame.laid hlaid, hcontents⟩

/-- A directory with contiguous segments that hold the bytes of `history` from `first` on. -/
structure Directory.Stores (dir : Directory) (topic : String) (first : Nat) (history : Bytes) :
    Prop where
  sound : dir.Sound
  opens : ∃ stored, StoredLog.ofDirectory topic dir = .ok stored ∧ stored.Contiguous ∧
    stored.Bounded ∧ stored.Holds first history

/-- What a volume has of all topics. -/
def Volume.Stores (volume : Volume) (first : String → Nat) (history : String → Bytes) : Prop :=
  ∀ topic, topic.utf8ByteSize ≤ maxNameLength →
    (volume.directory topic).Stores topic (first topic) (history topic)

/-- Whoever opens the directory finds the history, and no readers yet. -/
theorem Directory.Stores.exists_keeps {dir : Directory} {topic : String} {first : Nat}
    {history : Bytes} (hstores : dir.Stores topic first history) :
    ∃ stored, StoredLog.ofDirectory topic dir = .ok stored ∧ stored.Keeps history ∧
      stored.log.firstOffset = first ∧ (stored.log.segments = [] → history = []) ∧
      stored.log.readers = [] := by
  obtain ⟨stored, hopen, hcontiguous, hbounded, hfirst, hmax, hbytes⟩ := hstores.opens
  obtain ⟨parts, hlaid⟩ := StoredLog.Laid.of_open hstores.sound hopen hcontiguous hbounded
  have hcontents : Part.contents parts = history.drop stored.log.firstOffset := by
    rw [hfirst]
    exact Except.ok.inj (hlaid.bytes_eq.symm.trans hbytes)
  have hself := hlaid.ofDirectory_eq topic
  rw [(StoredLog.topic_of_ofDirectory hopen).2, hopen, Except.ok.injEq] at hself
  refine ⟨stored, hopen, ⟨hmax.symm, parts, hlaid, hcontents⟩, hfirst, fun hempty => ?_, ?_⟩
  · have hzero : stored.log.maxOffset = 0 := by
      rw [hself]
      exact if_pos hempty
    exact List.length_eq_zero_iff.mp (hmax.symm.trans hzero)
  · rw [hself]

theorem Volume.stores_empty : Volume.Stores {} (fun _ => 0) (fun _ => []) := by
  intro topic hshort
  have hdir : Volume.directory {} topic = {} := by
    simp [Volume.directory, Nat.not_lt.mpr hshort]
  rw [hdir]
  exact ⟨.missing, ⟨{ topic }, {}⟩, rfl, ⟨List.Pairwise.nil, List.IsChain.nil⟩,
    StoredLog.bounded_of_nil rfl, rfl, rfl, rfl⟩

end ReplicatedLog
