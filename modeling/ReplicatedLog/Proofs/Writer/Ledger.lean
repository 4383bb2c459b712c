import Mathlib.Algebra.BigOperators.Group.Finset.Piecewise
import ReplicatedLog.Disk.Volume
import ReplicatedLog.Proofs.Block.Stream
import ReplicatedLog.Writer

namespace ReplicatedLog

/-- What is asked of a writer. -/
inductive WriterCall
  | add (topic : String) (entry : Bytes) (now : Instant)
  | flushTopic (topic : String) (now : Instant)
  | flush (now : Instant)

namespace WriterCall

/-- The same is asked, at whatever times. -/
inductive Alike : WriterCall → WriterCall → Prop
  | add (topic : String) (entry : Bytes) (now other : Instant) :
      Alike (add topic entry now) (add topic entry other)
  | flushTopic (topic : String) (now other : Instant) :
      Alike (flushTopic topic now) (flushTopic topic other)
  | flush (now other : Instant) : Alike (flush now) (flush other)

theorem Alike.refl (call : WriterCall) : Alike call call := by
  cases call with
  | add topic entry now => exact .add topic entry now now
  | flushTopic topic now => exact .flushTopic topic now now
  | flush now => exact .flush now now

/-- The topic and the entry that a call adds. -/
def added? : WriterCall → Option (String × Bytes)
  | add topic entry _ => some (topic, entry)
  | flushTopic .. | flush _ => none

/-- The entries added to a topic, in the order of the calls. -/
def added (topic : String) (calls : List WriterCall) : List Bytes :=
  ((calls.filterMap added?).filter fun entry => entry.1 = topic).map (·.2)

theorem added_append (topic : String) (first second : List WriterCall) :
    added topic (first ++ second) = added topic first ++ added topic second := by
  rw [added, List.filterMap_append, List.filter_append, List.map_append, ← added, ← added]

theorem filterMap_added?_congr {calls others : List WriterCall}
    (halike : List.Forall₂ Alike calls others) :
    calls.filterMap added? = others.filterMap added? := by
  induction halike with
  | nil => rfl
  | cons hcall _ ih =>
    rw [List.filterMap_cons, List.filterMap_cons, ih]
    cases hcall <;> rfl

end WriterCall

/-- The entries of one topic: those of every block made so far, and those that wait for the next. -/
structure Ledger where
  blocks : List (List Bytes) := []
  pending : List Bytes := []

namespace Ledger

variable {ledger : Ledger} {maxBuffer : Nat} {topic : String} {calls others : List WriterCall}

def entries (ledger : Ledger) : List Bytes :=
  ledger.blocks.flatten ++ ledger.pending

/-- The entries that wait make up a block, unless there are none. -/
def flush (ledger : Ledger) : Ledger :=
  if ledger.pending = [] then ledger else ⟨ledger.blocks ++ [ledger.pending], []⟩

def put (ledger : Ledger) (entry : Bytes) : Ledger :=
  { ledger with pending := ledger.pending ++ [entry] }

/-- Flushes once there is enough for a block. -/
def settle (maxBuffer : Nat) (ledger : Ledger) : Ledger :=
  if maxBuffer ≤ (Entries.encode ledger.pending).length then ledger.flush else ledger

/-- What a call makes of the entries of a topic. -/
def next (maxBuffer : Nat) (topic : String) (ledger : Ledger) : WriterCall → Ledger
  | .add other entry _ => if other = topic then (ledger.put entry).settle maxBuffer else ledger
  | .flushTopic other _ => if other = topic then ledger.flush else ledger
  | .flush _ => ledger.flush

/-- What all calls make of the entries of a topic. -/
def ofCalls (maxBuffer : Nat) (topic : String) (calls : List WriterCall) : Ledger :=
  calls.foldl (next maxBuffer topic) {}

theorem flush_of_nil (hnone : ledger.pending = []) : ledger.flush = ledger :=
  if_pos hnone

theorem flush_of_ne_nil (hsome : ledger.pending ≠ []) :
    ledger.flush = ⟨ledger.blocks ++ [ledger.pending], []⟩ :=
  if_neg hsome

theorem length_blocks_flush (hsome : ledger.pending ≠ []) :
    ledger.flush.blocks.length = ledger.blocks.length + 1 := by
  rw [flush_of_ne_nil hsome, List.length_append, List.length_singleton]

theorem length_encode_flush (hsome : ledger.pending ≠ []) :
    (Entries.encode ledger.flush.blocks.flatten).length =
      (Entries.encode ledger.blocks.flatten).length + (Entries.encode ledger.pending).length := by
  rw [flush_of_ne_nil hsome, List.flatten_append, List.flatten_singleton, Entries.encode_append,
    List.length_append]

theorem pending_flush (ledger : Ledger) : ledger.flush.pending = [] := by
  by_cases hnone : ledger.pending = []
  · rw [flush_of_nil hnone, hnone]
  · rw [flush_of_ne_nil hnone]

theorem flush_flush (ledger : Ledger) : ledger.flush.flush = ledger.flush :=
  flush_of_nil ledger.pending_flush

/-- A flush moves entries, but it keeps them all and in their order. -/
theorem entries_flush (ledger : Ledger) : ledger.flush.entries = ledger.entries := by
  by_cases hnone : ledger.pending = []
  · rw [flush_of_nil hnone]
  · rw [flush_of_ne_nil hnone, entries, entries, List.flatten_append, List.flatten_singleton,
      List.append_nil]

theorem entries_put (ledger : Ledger) (entry : Bytes) :
    (ledger.put entry).entries = ledger.entries ++ [entry] :=
  (List.append_assoc ..).symm

theorem entries_settle (maxBuffer : Nat) (ledger : Ledger) :
    (ledger.settle maxBuffer).entries = ledger.entries := by
  unfold settle
  split
  · exact ledger.entries_flush
  · rfl

theorem entries_next (ledger : Ledger) (call : WriterCall) :
    (ledger.next maxBuffer topic call).entries = ledger.entries ++ WriterCall.added topic [call] := by
  cases call with
  | add other entry now =>
    by_cases hname : other = topic
    · simp [next, WriterCall.added, WriterCall.added?, hname, entries_settle, entries_put]
    · simp [next, WriterCall.added, WriterCall.added?, hname]
  | flushTopic other now =>
    have hnone : WriterCall.added topic [.flushTopic other now] = [] := rfl
    rw [hnone, List.append_nil, next]
    split
    · exact ledger.entries_flush
    · rfl
  | flush now =>
    have hnone : WriterCall.added topic [.flush now] = [] := rfl
    rw [hnone, List.append_nil]
    exact ledger.entries_flush

theorem ofCalls_concat (calls : List WriterCall) (call : WriterCall) :
    ofCalls maxBuffer topic (calls ++ [call]) =
      (ofCalls maxBuffer topic calls).next maxBuffer topic call :=
  List.foldl_concat ..

/-- No entry is lost, doubled or moved before another. -/
theorem entries_ofCalls (maxBuffer : Nat) (topic : String) (calls : List WriterCall) :
    (ofCalls maxBuffer topic calls).entries = WriterCall.added topic calls := by
  induction calls using List.reverseRecOn with
  | nil => rfl
  | append_singleton calls call ih =>
    rw [ofCalls_concat, entries_next, ih, WriterCall.added_append]

theorem pending_lt_settle (hpos : 0 < maxBuffer) (ledger : Ledger) :
    (Entries.encode (ledger.settle maxBuffer).pending).length < maxBuffer := by
  unfold settle
  split
  · rw [pending_flush]
    exact hpos
  next hshort => exact Nat.lt_of_not_le hshort

/-- After every call, what waits is less than what makes up a block. -/
theorem pending_lt_ofCalls (hpos : 0 < maxBuffer) (topic : String) (calls : List WriterCall) :
    (Entries.encode (ofCalls maxBuffer topic calls).pending).length < maxBuffer := by
  induction calls using List.reverseRecOn with
  | nil => exact hpos
  | append_singleton calls call ih =>
    have hflush : (Entries.encode (ofCalls maxBuffer topic calls).flush.pending).length < maxBuffer := by
      rw [pending_flush]
      exact hpos
    rw [ofCalls_concat]
    cases call with
    | add other entry now =>
      rw [next]
      split
      · exact pending_lt_settle hpos _
      · exact ih
    | flushTopic other now =>
      rw [next]
      split
      · exact hflush
      · exact ih
    | flush now => exact hflush

theorem ofCalls_congr (halike : List.Forall₂ WriterCall.Alike calls others) :
    ofCalls maxBuffer topic calls = ofCalls maxBuffer topic others := by
  have hfold : ∀ ledger : Ledger, calls.foldl (next maxBuffer topic) ledger =
      others.foldl (next maxBuffer topic) ledger := by
    induction halike with
    | nil => exact fun _ => rfl
    | cons hcall _ ih =>
      intro ledger
      rw [List.foldl_cons, List.foldl_cons, ih]
      cases hcall <;> rfl
  exact hfold {}

section History

variable {compress : Zstd.Compressor} {level : Int}

/-- The bytes of the blocks. -/
def bytes (compress : Zstd.Compressor) (level : Int) (ledger : Ledger) : Bytes :=
  ((ledger.blocks.map Entries.encode).map (Block.framedBytes compress level)).flatten

/-- Every block has room in its length fields. -/
def Fits (compress : Zstd.Compressor) (level : Int) (ledger : Ledger) : Prop :=
  ∀ block ∈ ledger.blocks, (Block.framed compress level (Entries.encode block)).header.Fits

/-- The bytes of a flush are one block more. -/
theorem bytes_flush (hsome : ledger.pending ≠ []) :
    ledger.flush.bytes compress level =
      ledger.bytes compress level ++
        Block.framedBytes compress level (Entries.encode ledger.pending) := by
  rw [flush_of_ne_nil hsome, bytes, bytes, List.map_append, List.map_append, List.flatten_append]
  simp

/-- The blocks read back with the entries that they were made of. -/
theorem readAll_bytes (hlossless : Zstd.Lossless compress) (hfits : ledger.Fits compress level) :
    Block.readAll (ledger.bytes compress level) =
      ((ledger.blocks.map Entries.encode).map (Block.framed compress level), none, []) := by
  have hraws : ∀ raw ∈ ledger.blocks.map Entries.encode,
      (Block.framed compress level raw).header.Fits := by
    intro raw hmem
    obtain ⟨block, hblock, rfl⟩ := List.mem_map.mp hmem
    exact hfits block hblock
  have hend : Block.read [] = (.ok none, []) := rfl
  have hread := Block.readAll_framedBytes_append hlossless hraws hend
  rwa [List.append_nil] at hread

theorem entries_of_framed (hfits : ledger.Fits compress level) {block : Block}
    (hmem : block ∈ (ledger.blocks.map Entries.encode).map (Block.framed compress level)) :
    block.entries.2 = none := by
  obtain ⟨raw, hraw, rfl⟩ := List.mem_map.mp hmem
  obtain ⟨list, hlist, rfl⟩ := List.mem_map.mp hraw
  rw [Block.entries_framed (hfits list hlist)]

theorem flatMap_entries_framed (hfits : ledger.Fits compress level) :
    (((ledger.blocks.map Entries.encode).map (Block.framed compress level)).flatMap
      fun block => block.entries.1) = ledger.blocks.flatten := by
  rw [List.map_map, List.flatMap_map, ← List.flatMap_id]
  apply List.flatMap_congr
  intro list hlist
  rw [Function.comp_apply, Block.entries_framed (hfits list hlist)]
  rfl

theorem sum_frameLength (compress : Zstd.Compressor) (level : Int) (ledger : Ledger) :
    (((ledger.blocks.map Entries.encode).map (Block.framed compress level)).map
      Block.frameLength).sum = (ledger.bytes compress level).length := by
  rw [bytes, List.length_flatten]
  simp only [List.map_map]
  refine congrArg List.sum (List.map_congr_left ?_)
  intro block _
  exact (Block.length_framedBytes compress level (Entries.encode block)).symm

end History

section Topics

variable {compress : Zstd.Compressor} {level : Int} {ledgers : String → Ledger}
  {topics : Finset String} {stats : WriterStats}

/-- A call that is about one topic leaves the ledgers of the others alone. -/
theorem next_add (maxBuffer : Nat) (topic : String) (entry : Bytes) (now : Instant) :
    (fun name => (ledgers name).next maxBuffer name (.add topic entry now)) =
      Function.update ledgers topic (((ledgers topic).put entry).settle maxBuffer) := by
  funext name
  by_cases hname : name = topic
  · subst hname
    rw [Function.update_self, next, if_pos rfl]
  · rw [Function.update_of_ne hname, next, if_neg (Ne.symm hname)]

theorem next_flushTopic (maxBuffer : Nat) (topic : String) (now : Instant) :
    (fun name => (ledgers name).next maxBuffer name (.flushTopic topic now)) =
      Function.update ledgers topic (ledgers topic).flush := by
  funext name
  by_cases hname : name = topic
  · subst hname
    rw [Function.update_self, next, if_pos rfl]
  · rw [Function.update_of_ne hname, next, if_neg (Ne.symm hname)]

/-- The log of a topic holds its blocks, and a topic with an invalid name has no log. -/
def history (compress : Zstd.Compressor) (level : Int) (ledgers : String → Ledger)
    (topic : String) : Bytes :=
  if Topic.IsValid topic then (ledgers topic).bytes compress level else []

/-- Entries that only wait are no part of a log. -/
theorem history_congr {others : String → Ledger}
    (hblocks : ∀ topic, (others topic).blocks = (ledgers topic).blocks) :
    history compress level others = history compress level ledgers := by
  funext topic
  rw [history, history, bytes, bytes, hblocks]

theorem history_flush_of_valid (hvalid : Topic.IsValid topic) (hsome : (ledgers topic).pending ≠ []) :
    history compress level (Function.update ledgers topic (ledgers topic).flush) =
      Function.update (history compress level ledgers) topic
        (history compress level ledgers topic ++
          Block.framedBytes compress level (Entries.encode (ledgers topic).pending)) := by
  funext other
  by_cases hname : other = topic
  · subst hname
    rw [Function.update_self, history, history, if_pos hvalid, if_pos hvalid, Function.update_self,
      bytes_flush hsome]
  · rw [Function.update_of_ne hname, history, history, Function.update_of_ne hname]

theorem history_update_of_invalid (hinvalid : ¬ Topic.IsValid topic) (ledger : Ledger) :
    history compress level (Function.update ledgers topic ledger) =
      history compress level ledgers := by
  funext other
  by_cases hname : other = topic
  · rw [history, history, hname, if_neg hinvalid, if_neg hinvalid]
  · rw [history, history, Function.update_of_ne hname]

/-- What the ledger of one topic adds to a sum over topics. -/
theorem sum_update (weight : Ledger → Nat) (hmem : topic ∈ topics) {extra : Nat}
    (hweight : weight ledger = weight (ledgers topic) + extra) :
    ∑ name ∈ topics, weight (Function.update ledgers topic ledger name) =
      ∑ name ∈ topics, weight (ledgers name) + extra := by
  have hothers : ∑ name ∈ topics.erase topic, weight (Function.update ledgers topic ledger name) =
      ∑ name ∈ topics.erase topic, weight (ledgers name) := by
    apply Finset.sum_congr rfl
    intro name hname
    rw [Function.update_of_ne (Finset.ne_of_mem_erase hname)]
  have hafter := Finset.add_sum_erase topics
    (fun name => weight (Function.update ledgers topic ledger name)) hmem
  have hbefore := Finset.add_sum_erase topics (fun name => weight (ledgers name)) hmem
  simp only [Function.update_self] at hafter
  omega

theorem sum_update_of_notMem (weight : Ledger → Nat) (hnot : topic ∉ topics) (ledger : Ledger) :
    ∑ name ∈ topics, weight (Function.update ledgers topic ledger name) =
      ∑ name ∈ topics, weight (ledgers name) := by
  apply Finset.sum_congr rfl
  intro name hname
  have hne : name ≠ topic := by
    rintro rfl
    exact hnot hname
  rw [Function.update_of_ne hne]

/-- The counters of a writer tell of the blocks of all topics: those of valid names are stored, the
    others dropped. -/
structure Counts (compress : Zstd.Compressor) (level : Int) (topics : Finset String)
    (ledgers : String → Ledger) (stats : WriterStats) : Prop where
  blocksWritten : stats.blocksWritten =
    ∑ topic ∈ topics with Topic.IsValid topic, (ledgers topic).blocks.length
  rawBytes : stats.rawBytes =
    ∑ topic ∈ topics with Topic.IsValid topic, (Entries.encode (ledgers topic).blocks.flatten).length
  storedBytes : stats.storedBytes =
    ∑ topic ∈ topics with Topic.IsValid topic, ((ledgers topic).bytes compress level).length
  failedBlocks : stats.failedBlocks =
    ∑ topic ∈ topics with ¬ Topic.IsValid topic, (ledgers topic).blocks.length

namespace Counts

theorem congr (hcounts : Counts compress level topics ledgers stats) {others : String → Ledger}
    (hblocks : ∀ topic, (others topic).blocks = (ledgers topic).blocks) :
    Counts compress level topics others stats := by
  obtain ⟨hwritten, hraw, hstored, hfailed⟩ := hcounts
  refine ⟨?_, ?_, ?_, ?_⟩
  · simpa only [hblocks] using hwritten
  · simpa only [hblocks] using hraw
  · simpa only [bytes, hblocks] using hstored
  · simpa only [hblocks] using hfailed

theorem flush_of_valid (hcounts : Counts compress level topics ledgers stats) (hmem : topic ∈ topics)
    (hvalid : Topic.IsValid topic) (hsome : (ledgers topic).pending ≠ []) :
    Counts compress level topics (Function.update ledgers topic (ledgers topic).flush)
      (stats.count (Entries.encode (ledgers topic).pending)
        (.ok (Block.framedBytes compress level (Entries.encode (ledgers topic).pending)).length)) := by
  have hstored : topic ∈ topics.filter Topic.IsValid := Finset.mem_filter.mpr ⟨hmem, hvalid⟩
  have hdropped : topic ∉ topics.filter (¬ Topic.IsValid ·) :=
    fun hboth => (Finset.mem_filter.mp hboth).2 hvalid
  have hbytes : ((ledgers topic).flush.bytes compress level).length =
      ((ledgers topic).bytes compress level).length +
        (Block.framedBytes compress level (Entries.encode (ledgers topic).pending)).length := by
    rw [bytes_flush hsome, List.length_append]
  refine ⟨?_, ?_, ?_, ?_⟩
  · rw [sum_update (·.blocks.length) hstored (length_blocks_flush hsome)]
    exact congrArg (· + 1) hcounts.blocksWritten
  · rw [sum_update (fun ledger => (Entries.encode ledger.blocks.flatten).length) hstored
      (length_encode_flush hsome)]
    exact congrArg (· + _) hcounts.rawBytes
  · rw [sum_update (fun ledger => (ledger.bytes compress level).length) hstored hbytes]
    exact congrArg (· + _) hcounts.storedBytes
  · rw [sum_update_of_notMem (·.blocks.length) hdropped]
    exact hcounts.failedBlocks

theorem flush_of_invalid (hcounts : Counts compress level topics ledgers stats)
    (hmem : topic ∈ topics) (hinvalid : ¬ Topic.IsValid topic)
    (hsome : (ledgers topic).pending ≠ []) (raw : Bytes) (fault : Fault) :
    Counts compress level topics (Function.update ledgers topic (ledgers topic).flush)
      (stats.count raw (.error fault)) := by
  have hstored : topic ∉ topics.filter Topic.IsValid :=
    fun hboth => hinvalid (Finset.mem_filter.mp hboth).2
  have hdropped : topic ∈ topics.filter (¬ Topic.IsValid ·) :=
    Finset.mem_filter.mpr ⟨hmem, hinvalid⟩
  refine ⟨?_, ?_, ?_, ?_⟩
  · rw [sum_update_of_notMem (·.blocks.length) hstored]
    exact hcounts.blocksWritten
  · rw [sum_update_of_notMem (fun ledger => (Entries.encode ledger.blocks.flatten).length) hstored]
    exact hcounts.rawBytes
  · rw [sum_update_of_notMem (fun ledger => (ledger.bytes compress level).length) hstored]
    exact hcounts.storedBytes
  · rw [sum_update (·.blocks.length) hdropped (length_blocks_flush hsome)]
    exact congrArg (· + 1) hcounts.failedBlocks

end Counts

end Topics

end Ledger

end ReplicatedLog
