import ReplicatedLog.Proofs.Log.Contents
import ReplicatedLog.Proofs.Store.Recording
import ReplicatedLog.Proofs.Writer.Ledger

namespace ReplicatedLog

/-- A buffer may not be unbounded, and not so large that a block might not fit its length field. -/
theorem WriterSettings.maxBuffer_of_validate {settings : WriterSettings}
    (hvalid : settings.validate = .ok ()) :
    0 < settings.maxBuffer ∧ settings.maxBuffer ≤ 0x7fffffff := by
  unfold validate at hvalid
  split at hvalid
  · contradiction
  · split at hvalid
    · contradiction
    · split at hvalid
      · contradiction
      · omega

namespace Writer

variable {writer : Writer} {store : Store} {topic : String} {raw : Bytes} {now : Instant}
  {history : String → Bytes}

theorem lookup_setBuffer (topic : String) (bytes : Bytes) (buffers : List (String × Bytes))
    (other : String) :
    (setBuffer topic bytes buffers).lookup other =
      if other = topic then some bytes else buffers.lookup other := by
  induction buffers with
  | nil =>
    by_cases hname : other = topic
    · simp [setBuffer, hname]
    · simp [setBuffer, List.lookup_cons, beq_false_of_ne hname, hname]
  | cons first rest ih =>
    obtain ⟨name, kept⟩ := first
    rw [setBuffer]
    by_cases hfirst : name = topic
    · subst hfirst
      by_cases hname : other = name
      · simp [hname]
      · simp [List.lookup_cons, beq_false_of_ne hname, hname]
    · rw [if_neg hfirst, List.lookup_cons, List.lookup_cons, ih]
      by_cases hname : other = name
      · subst hname
        simp [hfirst]
      · simp [beq_false_of_ne hname]

/-- Only the buffer that is set changes. -/
theorem buffer_setBuffer (writer : Writer) (topic : String) (bytes : Bytes) (stats : WriterStats) :
    buffer { writer with buffers := setBuffer topic bytes writer.buffers, stats } =
      Function.update writer.buffer topic bytes := by
  funext other
  rw [buffer, lookup_setBuffer, Function.update_apply]
  split <;> rfl

/-- A flush of all topics goes through every topic of which something is buffered. -/
theorem mem_topics_of_buffer (hsome : writer.buffer topic ≠ []) :
    topic ∈ (writer.buffers.filter fun entry => !entry.2.isEmpty).map (·.1) := by
  cases hlookup : writer.buffers.lookup topic with
  | none =>
    rw [buffer, hlookup] at hsome
    exact absurd rfl hsome
  | some bytes =>
    rw [buffer, hlookup, Option.getD_some] at hsome
    obtain ⟨front, back, hbuffers, -⟩ := List.lookup_eq_some_iff.mp hlookup
    have hmem : (topic, bytes) ∈ writer.buffers.filter fun entry => !entry.2.isEmpty :=
      List.mem_filter.mpr ⟨by rw [hbuffers]; simp, by simpa using hsome⟩
    exact List.mem_map_of_mem (f := (·.1)) hmem

/-- A buffer that is set keeps its place, or lies behind all others. -/
theorem names_setBuffer (topic : String) (bytes : Bytes) (buffers : List (String × Bytes)) :
    (setBuffer topic bytes buffers).map (·.1) =
      if topic ∈ buffers.map (·.1) then buffers.map (·.1) else buffers.map (·.1) ++ [topic] := by
  induction buffers with
  | nil => rfl
  | cons first rest ih =>
    obtain ⟨name, kept⟩ := first
    rw [setBuffer]
    by_cases hname : name = topic
    · simp [hname]
    · rw [if_neg hname, List.map_cons, ih]
      by_cases hmem : topic ∈ rest.map (·.1)
      · simp [hmem]
      · simp [hmem, Ne.symm hname]

/-- No topic has two buffers. -/
theorem nodup_setBuffer {buffers : List (String × Bytes)} (hnodup : (buffers.map (·.1)).Nodup)
    (topic : String) (bytes : Bytes) : ((setBuffer topic bytes buffers).map (·.1)).Nodup := by
  rw [names_setBuffer]
  by_cases hmem : topic ∈ buffers.map (·.1)
  · rwa [if_pos hmem]
  · rw [if_neg hmem]
    refine List.nodup_append.mpr ⟨hnodup, List.nodup_singleton _, fun name hname other hother => ?_⟩
    rw [List.mem_singleton.mp hother]
    exact ne_of_mem_of_not_mem hname hmem

/-- Where the buffers lie means nothing. -/
theorem lookup_eq_of_perm {buffers others : List (String × Bytes)} (hperm : buffers.Perm others)
    (hnodup : (buffers.map (·.1)).Nodup) (topic : String) :
    buffers.lookup topic = others.lookup topic := by
  induction hperm with
  | nil => rfl
  | cons entry _ ih => rw [List.lookup_cons, List.lookup_cons, ih (List.nodup_cons.mp hnodup).2]
  | swap first second rest =>
    obtain ⟨name, bytes⟩ := first
    obtain ⟨other, more⟩ := second
    have hne : other ≠ name := by simp_all
    rw [List.lookup_cons, List.lookup_cons, List.lookup_cons, List.lookup_cons]
    by_cases hname : topic = name
    · simp [hname, beq_false_of_ne hne.symm]
    · simp [beq_false_of_ne hname]
  | trans hfirst _ ih hlast =>
    exact (ih hnodup).trans (hlast ((hfirst.map (·.1)).nodup_iff.mp hnodup))

/-- The writer with one more entry in a buffer. -/
def put (writer : Writer) (topic : String) (entry : Bytes) : Writer :=
  { writer with
    buffers := setBuffer topic (writer.buffer topic ++ Entries.encodeOne entry) writer.buffers
    stats := { writer.stats with entriesAdded := writer.stats.entriesAdded + 1 } }

theorem buffer_put (writer : Writer) (topic : String) (entry : Bytes) :
    (writer.put topic entry).buffer =
      Function.update writer.buffer topic (writer.buffer topic ++ Entries.encodeOne entry) :=
  writer.buffer_setBuffer topic _ _

theorem add_eq (writer : Writer) (store : Store) (topic : String) (entry : Bytes) (now : Instant) :
    writer.add store topic entry now =
      if writer.settings.maxBuffer ≤ ((writer.put topic entry).buffer topic).length then
        (writer.put topic entry).flushTopic store topic now
      else (.ok (), writer.put topic entry, store) := by
  rw [buffer_put, Function.update_self]
  rfl

theorem flushTopic_of_nil (hnone : writer.buffer topic = []) (store : Store) (now : Instant) :
    writer.flushTopic store topic now = (.ok (), writer, store) := by
  rw [flushTopic, hnone]
  rfl

/-- Whatever becomes of its block, the buffer is empty then. -/
theorem flushTopic_of_ne_nil (hsome : writer.buffer topic ≠ []) {outcome : Except Fault Nat}
    {after : Store}
    (hwrite : writer.writeBlock store topic (writer.buffer topic) now = (outcome, after)) :
    writer.flushTopic store topic now =
      (outcome.map fun _ => (),
        { writer with
          buffers := setBuffer topic [] writer.buffers
          stats := writer.stats.count (writer.buffer topic) outcome }, after) := by
  have hfull : ¬ (writer.buffer topic).isEmpty := by
    rwa [List.isEmpty_iff]
  rw [flushTopic]
  simp only [hfull, hwrite]
  rfl

/-- The block of a topic with an invalid name is made in vain. -/
theorem writeBlock_of_invalid (hrecords : store.Records history) (hinvalid : ¬ Topic.IsValid topic)
    (writer : Writer) (raw : Bytes) (now : Instant) :
    ∃ fault, writer.writeBlock store topic raw now = (.error fault, store) := by
  unfold writeBlock
  cases hframe : Block.frameBy writer.compress raw writer.settings.compressionLevel with
  | error fault => exact ⟨fault, rfl⟩
  | ok block =>
    obtain ⟨fault, happend⟩ :=
      hrecords.append_of_invalid hinvalid block writer.settings.rollSize now
    exact ⟨fault, by simp only [happend]⟩

/-- A block that fits goes behind those that its topic has. -/
theorem writeBlock_of_valid (hrecords : store.Records history) (hvalid : Topic.IsValid topic)
    (hshort : topic.utf8ByteSize ≤ maxNameLength) (writer : Writer) (raw : Bytes)
    (hnow : now.InCalendar)
    (hfits : (Block.framed writer.compress writer.settings.compressionLevel raw).header.Fits)
    (hroom : (history topic ++
      Block.framedBytes writer.compress writer.settings.compressionLevel raw).length ≤
        Decimal.maxValue) :
    ∃ after, writer.writeBlock store topic raw now =
        (.ok (Block.framedBytes writer.compress writer.settings.compressionLevel raw).length,
          after) ∧
      after.Records (Function.update history topic (history topic ++
        Block.framedBytes writer.compress writer.settings.compressionLevel raw)) := by
  obtain ⟨after, happend, hafter⟩ :=
    hrecords.append hvalid hshort _ writer.settings.rollSize hnow hroom
  refine ⟨after, ?_, hafter⟩
  rw [writeBlock, Block.frameBy_eq hfits]
  simp only [happend]

end Writer

/-- The next block of a topic can be made and stored, unless the name of the topic is refused. -/
def Ledger.HasRoom (compress : Zstd.Compressor) (level : Int) (topic : String) (ledger : Ledger) :
    Prop :=
  ledger.pending ≠ [] → Topic.IsValid topic →
    topic.utf8ByteSize ≤ maxNameLength ∧
      (Block.framed compress level (Entries.encode ledger.pending)).header.Fits ∧
      (ledger.bytes compress level).length +
        (Block.framedBytes compress level (Entries.encode ledger.pending)).length ≤ Decimal.maxValue

/-- A writer, and the store that it writes to. -/
structure Writing where
  writer : Writer
  store : Store

namespace Writing

/-- What an operation leaves. -/
def ofResult (result : Except Fault Unit × Writer × Store) : Writing :=
  ⟨result.2.1, result.2.2⟩

/-- A writer that nothing was asked of yet. -/
def start (settings : WriterSettings) (compress : Zstd.Compressor) (store : Store) : Writing :=
  ⟨{ settings, compress }, store⟩

/-- The same buffers, found in another order. -/
def reorder (state : Writing) (buffers : List (String × Bytes)) : Writing :=
  { state with writer := { state.writer with buffers } }

def perform (state : Writing) : WriterCall → Writing
  | .add topic entry now => ofResult (state.writer.add state.store topic entry now)
  | .flushTopic topic now => ofResult (state.writer.flushTopic state.store topic now)
  | .flush now => ofResult (state.writer.flush state.store now)

/-- A writer and a store that hold what the ledgers of all topics tell. -/
structure Tracks (settings : WriterSettings) (compress : Zstd.Compressor) (topics : Finset String)
    (ledgers : String → Ledger) (entries : Nat) (state : Writing) : Prop where
  settings_eq : state.writer.settings = settings
  compress_eq : state.writer.compress = compress
  nodup : (state.writer.buffers.map (·.1)).Nodup
  buffer : state.writer.buffer = fun topic => Entries.encode (ledgers topic).pending
  fits : ∀ topic, Topic.IsValid topic → (ledgers topic).Fits compress settings.compressionLevel
  records : state.store.Records (Ledger.history compress settings.compressionLevel ledgers)
  outside : ∀ topic, topic ∉ topics → ledgers topic = {}
  entriesAdded : state.writer.stats.entriesAdded = entries
  counts : Ledger.Counts compress settings.compressionLevel topics ledgers state.writer.stats

namespace Tracks

variable {settings : WriterSettings} {compress : Zstd.Compressor} {topics : Finset String}
  {ledgers : String → Ledger} {entries : Nat} {state : Writing} {topic : String} {now : Instant}

theorem of_start {store : Store} (hempty : store.Records fun _ => []) :
    (start settings compress store).Tracks settings compress topics (fun _ => {}) 0 where
  settings_eq := rfl
  compress_eq := rfl
  nodup := List.nodup_nil
  buffer := rfl
  fits _ _ _ hmem := absurd hmem List.not_mem_nil
  records := by
    have hnone : Ledger.history compress settings.compressionLevel (fun _ => {}) = fun _ => [] := by
      funext topic
      exact ite_self []
    rw [hnone]
    exact hempty
  outside _ _ := rfl
  entriesAdded := rfl
  counts := ⟨Finset.sum_const_zero.symm, Finset.sum_const_zero.symm, Finset.sum_const_zero.symm,
    Finset.sum_const_zero.symm⟩

/-- Buffers in another order hold the same. -/
theorem buffer_reorder (htracks : state.Tracks settings compress topics ledgers entries)
    {buffers : List (String × Bytes)} (hperm : buffers.Perm state.writer.buffers) :
    (state.reorder buffers).writer.buffer = state.writer.buffer := by
  have hnodup := (hperm.map (·.1)).nodup_iff.mpr htracks.nodup
  funext topic
  exact congrArg (·.getD []) (Writer.lookup_eq_of_perm hperm hnodup topic)

theorem reorder (htracks : state.Tracks settings compress topics ledgers entries)
    {buffers : List (String × Bytes)} (hperm : buffers.Perm state.writer.buffers) :
    (state.reorder buffers).Tracks settings compress topics ledgers entries :=
  ⟨htracks.settings_eq, htracks.compress_eq, (hperm.map (·.1)).nodup_iff.mpr htracks.nodup,
    (htracks.buffer_reorder hperm).trans htracks.buffer, htracks.fits, htracks.records,
    htracks.outside, htracks.entriesAdded, htracks.counts⟩

theorem mem_of_pending (htracks : state.Tracks settings compress topics ledgers entries)
    (hsome : (ledgers topic).pending ≠ []) : topic ∈ topics := by
  by_contra hnot
  rw [htracks.outside topic hnot] at hsome
  exact hsome rfl

/-- The ledger of a topic that is known may change. -/
theorem outside_update (htracks : state.Tracks settings compress topics ledgers entries)
    (hmem : topic ∈ topics) (ledger : Ledger) (other : String) (hother : other ∉ topics) :
    Function.update ledgers topic ledger other = {} := by
  have hne : other ≠ topic := by
    rintro rfl
    exact hother hmem
  rw [Function.update_of_ne hne]
  exact htracks.outside other hother

theorem put (htracks : state.Tracks settings compress topics ledgers entries)
    (hmem : topic ∈ topics) (entry : Bytes) :
    Tracks settings compress topics (Function.update ledgers topic ((ledgers topic).put entry))
      (entries + 1) ⟨state.writer.put topic entry, state.store⟩ := by
  have hblocks : ∀ name, (Function.update ledgers topic ((ledgers topic).put entry) name).blocks =
      (ledgers name).blocks := by
    intro name
    rw [Function.update_apply]
    split
    next heq => rw [heq, Ledger.put]
    next => rfl
  refine ⟨htracks.settings_eq, htracks.compress_eq, Writer.nodup_setBuffer htracks.nodup topic _,
    ?_, ?_, ?_, htracks.outside_update hmem _, ?_, ?_⟩
  · change (state.writer.put topic entry).buffer = _
    rw [Writer.buffer_put, htracks.buffer]
    funext name
    by_cases hname : name = topic
    · subst hname
      rw [Function.update_self, Function.update_self, Ledger.put, Entries.encode_append,
        Entries.encode_singleton]
    · rw [Function.update_of_ne hname, Function.update_of_ne hname]
  · intro name hvalid block hblock
    rw [hblocks] at hblock
    exact htracks.fits name hvalid block hblock
  · rw [Ledger.history_congr hblocks]
    exact htracks.records
  · exact congrArg (· + 1) htracks.entriesAdded
  · obtain ⟨hwritten, hraw, hstored, hfailed⟩ := htracks.counts.congr hblocks
    exact ⟨hwritten, hraw, hstored, hfailed⟩

/-- An emptied buffer is what a flushed ledger tells. -/
theorem buffer_flush (htracks : state.Tracks settings compress topics ledgers entries)
    (topic : String) :
    Function.update state.writer.buffer topic [] =
      fun name => Entries.encode
        (Function.update ledgers topic (ledgers topic).flush name).pending := by
  rw [htracks.buffer]
  funext name
  by_cases hname : name = topic
  · subst hname
    rw [Function.update_self, Function.update_self, Ledger.pending_flush]
    rfl
  · rw [Function.update_of_ne hname, Function.update_of_ne hname]

/-- A flush needs that its own block fits, and that only where the block is stored. -/
theorem fits_flush (htracks : state.Tracks settings compress topics ledgers entries)
    (hsome : (ledgers topic).pending ≠ [])
    (hfits : Topic.IsValid topic → (Block.framed compress settings.compressionLevel
      (Entries.encode (ledgers topic).pending)).header.Fits)
    (name : String) (hname : Topic.IsValid name) :
    (Function.update ledgers topic (ledgers topic).flush name).Fits compress
      settings.compressionLevel := by
  intro block hblock
  by_cases hsame : name = topic
  · subst hsame
    rw [Function.update_self, Ledger.flush_of_ne_nil hsome] at hblock
    rcases List.mem_append.mp hblock with hold | hnew
    · exact htracks.fits name hname block hold
    · rw [List.mem_singleton.mp hnew]
      exact hfits hname
  · rw [Function.update_of_ne hsame] at hblock
    exact htracks.fits name hname block hblock

/-- The block of a topic with a good name is stored. -/
theorem flushTopic_of_valid (htracks : state.Tracks settings compress topics ledgers entries)
    (hsome : (ledgers topic).pending ≠ []) (hvalid : Topic.IsValid topic)
    (hroom : (ledgers topic).HasRoom compress settings.compressionLevel topic)
    (hnow : now.InCalendar) :
    Tracks settings compress topics (Function.update ledgers topic (ledgers topic).flush) entries
      (ofResult (state.writer.flushTopic state.store topic now)) := by
  have hmem := htracks.mem_of_pending hsome
  have hraw : state.writer.buffer topic = Entries.encode (ledgers topic).pending := by
    rw [htracks.buffer]
  have hhistory : Ledger.history compress settings.compressionLevel ledgers topic =
      (ledgers topic).bytes compress settings.compressionLevel := if_pos hvalid
  obtain ⟨hshort, hfits, hlength⟩ := hroom hsome hvalid
  rw [← List.length_append] at hlength
  have hwrite := Writer.writeBlock_of_valid htracks.records hvalid hshort state.writer
    (Entries.encode (ledgers topic).pending) hnow
  rw [htracks.compress_eq, htracks.settings_eq, hhistory] at hwrite
  obtain ⟨after, hblock, hafter⟩ := hwrite hfits hlength
  rw [← hraw] at hblock
  rw [Writer.flushTopic_of_ne_nil (hraw ▸ Entries.encode_ne_nil hsome) hblock]
  refine ⟨htracks.settings_eq, htracks.compress_eq, Writer.nodup_setBuffer htracks.nodup topic [],
    ?_, htracks.fits_flush hsome fun _ => hfits, ?_, htracks.outside_update hmem _,
    htracks.entriesAdded, ?_⟩
  · rw [← htracks.buffer_flush topic]
    exact Writer.buffer_setBuffer _ _ _ _
  · rw [Ledger.history_flush_of_valid hvalid hsome, hhistory]
    exact hafter
  · have hcounts := htracks.counts.flush_of_valid hmem hvalid hsome
    rw [← hraw] at hcounts
    exact hcounts

/-- The flush of a topic with an invalid name drops one block and counts it. -/
theorem flushTopic_refused (htracks : state.Tracks settings compress topics ledgers entries)
    (hinvalid : ¬ Topic.IsValid topic) (hsome : state.writer.buffer topic ≠ []) (now : Instant) :
    ∃ fault, state.writer.flushTopic state.store topic now =
      (.error fault,
        { state.writer with
          buffers := Writer.setBuffer topic [] state.writer.buffers
          stats := { state.writer.stats with
            failedBlocks := state.writer.stats.failedBlocks + 1 } }, state.store) := by
  obtain ⟨fault, hwrite⟩ := Writer.writeBlock_of_invalid htracks.records hinvalid state.writer
    (state.writer.buffer topic) now
  exact ⟨fault, Writer.flushTopic_of_ne_nil hsome hwrite⟩

/-- A dropped block leaves its ledger too, and the log as it was. -/
theorem flushTopic_of_invalid (htracks : state.Tracks settings compress topics ledgers entries)
    (hsome : (ledgers topic).pending ≠ []) (hinvalid : ¬ Topic.IsValid topic) (now : Instant) :
    Tracks settings compress topics (Function.update ledgers topic (ledgers topic).flush) entries
      (ofResult (state.writer.flushTopic state.store topic now)) := by
  have hmem := htracks.mem_of_pending hsome
  have hraw : state.writer.buffer topic = Entries.encode (ledgers topic).pending := by
    rw [htracks.buffer]
  obtain ⟨fault, hflush⟩ :=
    htracks.flushTopic_refused hinvalid (hraw ▸ Entries.encode_ne_nil hsome) now
  rw [hflush]
  refine ⟨htracks.settings_eq, htracks.compress_eq, Writer.nodup_setBuffer htracks.nodup topic [],
    ?_, htracks.fits_flush hsome fun hvalid => absurd hvalid hinvalid, ?_,
    htracks.outside_update hmem _, htracks.entriesAdded,
    htracks.counts.flush_of_invalid hmem hinvalid hsome (state.writer.buffer topic) fault⟩
  · rw [← htracks.buffer_flush topic]
    exact Writer.buffer_setBuffer _ _ _ _
  · rw [Ledger.history_update_of_invalid hinvalid]
    exact htracks.records

/-- A flush of one topic does what its ledger says, whether its block is stored or dropped. -/
theorem flushTopic (htracks : state.Tracks settings compress topics ledgers entries)
    (hroom : (ledgers topic).HasRoom compress settings.compressionLevel topic)
    (hnow : now.InCalendar) :
    Tracks settings compress topics (Function.update ledgers topic (ledgers topic).flush) entries
      (ofResult (state.writer.flushTopic state.store topic now)) := by
  by_cases hnone : (ledgers topic).pending = []
  · have hraw : state.writer.buffer topic = [] := by
      rw [congrFun htracks.buffer topic, hnone]
      rfl
    rw [Ledger.flush_of_nil hnone, Function.update_eq_self, Writer.flushTopic_of_nil hraw]
    exact htracks
  · by_cases hvalid : Topic.IsValid topic
    · exact htracks.flushTopic_of_valid hnone hvalid hroom hnow
    · exact htracks.flushTopic_of_invalid hnone hvalid now

end Tracks

end Writing

end ReplicatedLog
