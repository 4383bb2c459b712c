import ReplicatedLog.Proofs.Writer.Writing

namespace ReplicatedLog

namespace Writing

variable {settings : WriterSettings} {compress : Zstd.Compressor} {store : Store}
  {topics : Finset String} {ledgers : String → Ledger} {entries : Nat} {state : Writing}
  {topic : String} {now : Instant} {calls : List WriterCall}

/-- The block of some entry data can be made and stored, unless the name of its topic is refused:
    the name fits into that of a directory, the lengths into their fields, and the end of the log into
    64 bits. -/
def Room (state : Writing) (topic : String) (raw : Bytes) : Prop :=
  let block := Block.framed state.writer.compress state.writer.settings.compressionLevel raw
  raw ≠ [] → Topic.IsValid topic →
    topic.utf8ByteSize ≤ maxNameLength ∧ block.header.Fits ∧
      ∀ stored, state.store.current topic = .ok stored →
        stored.log.maxOffset + block.frameLength ≤ Decimal.maxValue

/-- There is room for every block that a call makes. -/
def Allows (state : Writing) : WriterCall → Prop
  | .add topic entry now =>
    let raw := state.writer.buffer topic ++ Entries.encodeOne entry
    now.InCalendar ∧ (state.writer.settings.maxBuffer ≤ raw.length → state.Room topic raw)
  | .flushTopic topic now => now.InCalendar ∧ state.Room topic (state.writer.buffer topic)
  | .flush now => now.InCalendar ∧ ∀ topic, state.Room topic (state.writer.buffer topic)

/-- Calls are made one after the other, and between them the buffers may come to lie in any order. -/
inductive Run (start : Writing) : List WriterCall → Writing → Prop
  | refl : Run start [] start
  | call {calls : List WriterCall} {state : Writing} (hbefore : Run start calls state)
      (call : WriterCall) (hallows : state.Allows call) :
      Run start (calls ++ [call]) (state.perform call)
  | reorder {calls : List WriterCall} {state : Writing} (hbefore : Run start calls state)
      {buffers : List (String × Bytes)} (hperm : buffers.Perm state.writer.buffers) :
      Run start calls (state.reorder buffers)

namespace Tracks

theorem hasRoom (htracks : state.Tracks settings compress topics ledgers entries) {ledger : Ledger}
    (hblocks : ledger.blocks = (ledgers topic).blocks)
    (hroom : state.Room topic (Entries.encode ledger.pending)) :
    ledger.HasRoom compress settings.compressionLevel topic := by
  intro hsome hvalid
  obtain ⟨hshort, hfits, hend⟩ := hroom (Entries.encode_ne_nil hsome) hvalid
  rw [htracks.compress_eq, htracks.settings_eq] at hfits hend
  obtain ⟨stored, hcurrent, -, -⟩ := htracks.records.keeps topic hshort
  have hlength := htracks.records.endOf_eq hshort hcurrent
  rw [Ledger.history, if_pos hvalid] at hlength
  refine ⟨hshort, hfits, ?_⟩
  rw [Ledger.bytes, hblocks, ← Ledger.bytes, ← hlength, Block.length_framedBytes]
  exact hend stored hcurrent

theorem flushTopics (htracks : state.Tracks settings compress topics ledgers entries)
    (hnow : now.InCalendar) {order : List String}
    (hroom : ∀ topic ∈ order, (ledgers topic).HasRoom compress settings.compressionLevel topic) :
    Tracks settings compress topics
      (fun topic => if topic ∈ order then (ledgers topic).flush else ledgers topic) entries
      (ofResult (Writer.flushTopics now order state.writer state.store)) := by
  induction order generalizing ledgers state with
  | nil =>
    simp only [List.not_mem_nil, if_false]
    exact htracks
  | cons first rest ih =>
    have hfirst := htracks.flushTopic (hroom first List.mem_cons_self) hnow
    have hrest := ih hfirst fun topic hmem => by
      by_cases hname : topic = first
      · subst hname
        rw [Function.update_self]
        exact fun hsome => absurd (ledgers topic).pending_flush hsome
      · rw [Function.update_of_ne hname]
        exact hroom topic (List.mem_cons_of_mem _ hmem)
    -- a topic that comes up once more has nothing left to flush
    have hsame : (fun topic =>
        if topic ∈ rest then (Function.update ledgers first (ledgers first).flush topic).flush
        else Function.update ledgers first (ledgers first).flush topic) =
        fun topic => if topic ∈ first :: rest then (ledgers topic).flush else ledgers topic := by
      funext topic
      by_cases hname : topic = first
      · subst hname
        rw [Function.update_self, Ledger.flush_flush, if_pos List.mem_cons_self]
        exact ite_self _
      · rw [Function.update_of_ne hname]
        simp only [List.mem_cons, hname, false_or]
    rw [hsame] at hrest
    exact hrest

/-- An entry goes into its buffer, and the buffer into a block if it is full then. -/
theorem add (htracks : state.Tracks settings compress topics ledgers entries)
    (hmem : topic ∈ topics) {entry : Bytes} (hallows : state.Allows (.add topic entry now)) :
    Tracks settings compress topics
      (Function.update ledgers topic (((ledgers topic).put entry).settle settings.maxBuffer))
      (entries + 1) (ofResult (state.writer.add state.store topic entry now)) := by
  obtain ⟨hnow, hroom⟩ := hallows
  have hput := htracks.put hmem entry
  have hbuffer : (state.writer.put topic entry).buffer topic =
      Entries.encode ((ledgers topic).put entry).pending := by
    have hself := congrFun hput.buffer topic
    rwa [Function.update_self] at hself
  have hraw : state.writer.buffer topic ++ Entries.encodeOne entry =
      Entries.encode ((ledgers topic).put entry).pending := by
    rw [← hbuffer, Writer.buffer_put, Function.update_self]
  rw [hraw, htracks.settings_eq] at hroom
  rw [Writer.add_eq, hbuffer, htracks.settings_eq, Ledger.settle]
  by_cases hfull : settings.maxBuffer ≤ (Entries.encode ((ledgers topic).put entry).pending).length
  · have hspace : (Function.update ledgers topic ((ledgers topic).put entry) topic).HasRoom
        compress settings.compressionLevel topic := by
      rw [Function.update_self]
      exact htracks.hasRoom rfl (hroom hfull)
    have hflush := hput.flushTopic hspace hnow
    rw [Function.update_self, Function.update_idem] at hflush
    rw [if_pos hfull, if_pos hfull]
    exact hflush
  · rw [if_neg hfull, if_neg hfull]
    exact hput

/-- A flush of all topics flushes every ledger. -/
theorem flush (htracks : state.Tracks settings compress topics ledgers entries)
    (hallows : state.Allows (.flush now)) :
    Tracks settings compress topics (fun topic => (ledgers topic).flush) entries
      (ofResult (state.writer.flush state.store now)) := by
  obtain ⟨hnow, hroom⟩ := hallows
  let order := (state.writer.buffers.filter fun entry => !entry.2.isEmpty).map (·.1)
  rw [htracks.buffer] at hroom
  have hrooms : ∀ topic ∈ order,
      (ledgers topic).HasRoom compress settings.compressionLevel topic :=
    fun topic _ => htracks.hasRoom rfl (hroom topic)
  have hflush := htracks.flushTopics hnow hrooms
  -- what the order leaves out has nothing to flush
  have hledgers : (fun topic => if topic ∈ order then (ledgers topic).flush else ledgers topic) =
      fun topic => (ledgers topic).flush := by
    funext topic
    by_cases hmem : topic ∈ order
    · exact if_pos hmem
    · have hnone : (ledgers topic).pending = [] := by
        by_contra hsome
        have hbuffer : state.writer.buffer topic ≠ [] := by
          rw [htracks.buffer]
          exact Entries.encode_ne_nil hsome
        exact hmem (Writer.mem_topics_of_buffer hbuffer)
      rw [if_neg hmem, Ledger.flush_of_nil hnone]
  rw [hledgers] at hflush
  exact hflush

/-- Every call does what the ledgers say. -/
theorem step (htracks : state.Tracks settings compress topics ledgers entries) {call : WriterCall}
    (hallows : state.Allows call) (hknown : ∀ added, call.added? = some added → added.1 ∈ topics) :
    (state.perform call).Tracks settings compress topics
      (fun topic => (ledgers topic).next settings.maxBuffer topic call)
      (entries + call.added?.toList.length) := by
  cases call with
  | add topic entry now =>
    rw [Ledger.next_add]
    exact htracks.add (hknown (topic, entry) rfl) hallows
  | flushTopic topic now =>
    obtain ⟨hnow, hroom⟩ := hallows
    rw [htracks.buffer] at hroom
    rw [Ledger.next_flushTopic]
    exact htracks.flushTopic (htracks.hasRoom rfl hroom) hnow
  | flush now => exact htracks.flush hallows

/-- A reader from the start of a log is shown the entries of its blocks. -/
theorem read (htracks : state.Tracks settings compress topics ledgers entries)
    (hlossless : Zstd.Lossless compress) (hvalid : Topic.IsValid topic)
    (hshort : topic.utf8ByteSize ≤ maxNameLength) :
    ∃ stored cursor, state.store.current topic = .ok stored ∧
      Cursor.place stored.log.segments stored.log.maxOffset 0 = .ok cursor ∧
      cursor.visitEntries stored.dir Block.collect false [] =
        (.ok stored.log.maxOffset, (ledgers topic).blocks.flatten.reverse) := by
  obtain ⟨stored, hcurrent, hkeeps, hfirst⟩ := htracks.records.keeps topic hshort
  have hlength := hkeeps.1
  rw [Ledger.history, if_pos hvalid] at hkeeps hlength
  have hfits := htracks.fits topic hvalid
  obtain ⟨cursor, hplace, hvisit⟩ := hkeeps.visit_from_start hfirst
    (Ledger.readAll_bytes hlossless hfits) fun block hmem => Ledger.entries_of_framed hfits hmem
  rw [Ledger.sum_frameLength, hlength, Ledger.flatMap_entries_framed hfits] at hvisit
  exact ⟨stored, cursor, hcurrent, hplace, hvisit⟩

/-- Under an invalid name there is no log with anything in it. -/
theorem refused (htracks : state.Tracks settings compress topics ledgers entries)
    (hinvalid : ¬ Topic.IsValid topic) :
    state.store.peek? topic = none ∧ (topic.utf8ByteSize ≤ maxNameLength →
      ∃ stored, state.store.current topic = .ok stored ∧ stored.bytes = .ok []) := by
  refine ⟨?_, fun hshort => ?_⟩
  · cases hopen : state.store.peek? topic with
    | none => rfl
    | some number => exact absurd (htracks.records.named topic number hopen) hinvalid
  · obtain ⟨stored, hcurrent, hkeeps, -⟩ := htracks.records.keeps topic hshort
    rw [Ledger.history, if_neg hinvalid] at hkeeps
    exact ⟨stored, hcurrent, by rw [hkeeps.bytes_eq, List.drop_nil]⟩

/-- Entry data that fits into a buffer is decoded as it was encoded. -/
theorem decode_buffer (htracks : state.Tracks settings compress topics ledgers entries)
    (hmax : settings.maxBuffer ≤ 0x7fffffff)
    (hshort : (Entries.encode (ledgers topic).pending).length < settings.maxBuffer) :
    Entries.decode (state.writer.buffer topic) = ((ledgers topic).pending, none) := by
  have hword : 0x7fffffff ≤ Decimal.maxValue := by decide
  rw [htracks.buffer]
  exact Entries.decode_encode (hshort.le.trans (hmax.trans hword))

theorem totalBytes_eq (htracks : state.Tracks settings compress topics ledgers entries) :
    state.store.totalBytes = state.writer.stats.storedBytes := by
  have htopics : ∀ topic, Ledger.history compress settings.compressionLevel ledgers topic ≠ [] →
      topic ∈ topics.filter Topic.IsValid := by
    intro topic hsome
    by_cases hvalid : Topic.IsValid topic
    · refine Finset.mem_filter.mpr ⟨?_, hvalid⟩
      by_contra hnot
      rw [Ledger.history, if_pos hvalid, htracks.outside topic hnot] at hsome
      exact hsome rfl
    · rw [Ledger.history, if_neg hvalid] at hsome
      exact absurd rfl hsome
  rw [htracks.records.totalBytes_eq htopics, htracks.counts.storedBytes]
  apply Finset.sum_congr rfl
  intro topic hmem
  rw [Ledger.history, if_pos (Finset.mem_filter.mp hmem).2]

end Tracks

/-- All that was asked of a writer is in its buffers and in its store. -/
structure Faithful (settings : WriterSettings) (calls : List WriterCall) (state : Writing) :
    Prop where
  /-- A reader from the start of a log is shown all entries of its topic but those that wait. -/
  read : ∀ topic, Topic.IsValid topic → topic.utf8ByteSize ≤ maxNameLength →
    ∃ stored cursor shown pending, state.store.current topic = .ok stored ∧
      Cursor.place stored.log.segments stored.log.maxOffset 0 = .ok cursor ∧
      cursor.visitEntries stored.dir Block.collect false [] =
        (.ok stored.log.maxOffset, shown.reverse) ∧
      Entries.decode (state.writer.buffer topic) = (pending, none) ∧
      shown ++ pending = WriterCall.added topic calls
  /-- Under an invalid name nothing is stored. -/
  refused : ∀ topic, ¬ Topic.IsValid topic → state.store.peek? topic = none ∧
    (topic.utf8ByteSize ≤ maxNameLength →
      ∃ stored, state.store.current topic = .ok stored ∧ stored.bytes = .ok [])
  /-- A flush of an invalid name drops one block and counts it, and does nothing else. -/
  dropped : ∀ topic now, ¬ Topic.IsValid topic → state.writer.buffer topic ≠ [] →
    ∃ fault, state.writer.flushTopic state.store topic now =
      (.error fault,
        { state.writer with
          buffers := Writer.setBuffer topic [] state.writer.buffers
          stats := { state.writer.stats with
            failedBlocks := state.writer.stats.failedBlocks + 1 } }, state.store)
  /-- No other blocks are dropped. -/
  failedBlocks : ∀ topics : Finset String,
    (∀ topic, WriterCall.added topic calls ≠ [] → topic ∈ topics) →
    state.writer.stats.failedBlocks = ∑ topic ∈ topics with ¬ Topic.IsValid topic,
      (Ledger.ofCalls settings.maxBuffer topic calls).blocks.length
  /-- A flush of all topics leaves nothing that waits, whatever it meets on its way. -/
  flushed : ∀ now, state.Allows (.flush now) →
    ∀ topic, (state.perform (.flush now)).writer.buffer topic = []
  bounded : ∀ topic, (state.writer.buffer topic).length < settings.maxBuffer
  entriesAdded : state.writer.stats.entriesAdded = (calls.filterMap WriterCall.added?).length
  storedBytes : state.writer.stats.storedBytes = state.store.totalBytes

/-- Two writers with the same buffers and counters, on stores with the same bytes in every log. -/
structure Agrees (state other : Writing) : Prop where
  buffer : state.writer.buffer = other.writer.buffer
  stats : state.writer.stats = other.writer.stats
  logs : ∀ topic, topic.utf8ByteSize ≤ maxNameLength →
    ∃ stored same, state.store.current topic = .ok stored ∧ other.store.current topic = .ok same ∧
      stored.log.maxOffset = same.log.maxOffset ∧ stored.bytes = same.bytes

/-- The ledgers tell all of a writer but the names of its files. -/
theorem Tracks.agrees {other : Writing}
    (htracks : state.Tracks settings compress topics ledgers entries)
    (hother : other.Tracks settings compress topics ledgers entries) : state.Agrees other where
  buffer := htracks.buffer.trans hother.buffer.symm
  stats := by
    have hfirst := htracks.counts
    have hsecond := hother.counts
    have hadded := htracks.entriesAdded.trans hother.entriesAdded.symm
    have hwritten := hfirst.blocksWritten.trans hsecond.blocksWritten.symm
    have hraw := hfirst.rawBytes.trans hsecond.rawBytes.symm
    have hstored := hfirst.storedBytes.trans hsecond.storedBytes.symm
    have hfailed := hfirst.failedBlocks.trans hsecond.failedBlocks.symm
    cases hstats : state.writer.stats
    cases hsame : other.writer.stats
    simp_all
  logs topic hshort := by
    obtain ⟨stored, hcurrent, hkeeps, hstart⟩ := htracks.records.keeps topic hshort
    obtain ⟨same, hcurrentSame, hkeepsSame, hstartSame⟩ := hother.records.keeps topic hshort
    refine ⟨stored, same, hcurrent, hcurrentSame, hkeeps.1.symm.trans hkeepsSame.1, ?_⟩
    rw [hkeeps.bytes_eq, hkeepsSame.bytes_eq, hstart, hstartSame]

namespace Run

/-- The ledgers of the calls tell what a writer and its store hold. -/
theorem tracks (hempty : store.Records fun _ => [])
    (hrun : (start settings compress store).Run calls state)
    (htopics : ∀ topic, WriterCall.added topic calls ≠ [] → topic ∈ topics) :
    state.Tracks settings compress topics
      (fun topic => Ledger.ofCalls settings.maxBuffer topic calls)
      (calls.filterMap WriterCall.added?).length := by
  induction hrun with
  | refl => exact .of_start hempty
  | call hbefore call hallows ih =>
    rename_i calls state
    have hprefix : ∀ topic, WriterCall.added topic calls ≠ [] → topic ∈ topics := by
      intro topic hsome
      apply htopics
      rw [WriterCall.added_append]
      exact List.append_ne_nil_of_left_ne_nil hsome _
    have hknown : ∀ added, call.added? = some added → added.1 ∈ topics := by
      intro added hadded
      apply htopics
      rw [WriterCall.added_append]
      apply List.append_ne_nil_of_right_ne_nil
      simp [WriterCall.added, hadded]
    have hstep := (ih hprefix).step hallows hknown
    have hcount : ((calls ++ [call]).filterMap WriterCall.added?).length =
        (calls.filterMap WriterCall.added?).length + call.added?.toList.length := by
      rw [List.filterMap_append, List.length_append]
      cases hadded : call.added? <;> simp [hadded]
    simp only [Ledger.ofCalls_concat, hcount]
    exact hstep
  | reorder _ hperm ih => exact (ih htopics).reorder hperm

theorem exists_topics (calls : List WriterCall) :
    ∃ topics : Finset String, ∀ topic, WriterCall.added topic calls ≠ [] → topic ∈ topics := by
  refine ⟨((calls.filterMap WriterCall.added?).map (·.1)).toFinset, fun topic hsome => ?_⟩
  obtain ⟨entry, hentry⟩ := List.exists_mem_of_ne_nil _ hsome
  obtain ⟨added, hadded, -⟩ := List.mem_map.mp hentry
  obtain ⟨hmem, hname⟩ := List.mem_filter.mp hadded
  exact List.mem_toFinset.mpr (List.mem_map.mpr ⟨added, hmem, of_decide_eq_true hname⟩)

/-- Two runs with the same calls end alike, whatever the times and the order of the buffers were. -/
theorem agrees {others : List WriterCall} {other : Writing} (hempty : store.Records fun _ => [])
    (hrun : (start settings compress store).Run calls state)
    (hother : (start settings compress store).Run others other)
    (halike : List.Forall₂ WriterCall.Alike others calls) : other.Agrees state := by
  obtain ⟨topics, htopics⟩ := exists_topics calls
  have hadded := WriterCall.filterMap_added?_congr halike
  have hknown : ∀ topic, WriterCall.added topic others ≠ [] → topic ∈ topics := by
    intro topic hsome
    rw [WriterCall.added, hadded] at hsome
    exact htopics topic hsome
  have hsame := hother.tracks hempty hknown
  simp only [Ledger.ofCalls_congr halike, hadded] at hsame
  exact hsame.agrees (hrun.tracks hempty htopics)

/-- A flush does the same in whatever order the buffers lie. -/
theorem flush_agrees (hempty : store.Records fun _ => [])
    (hrun : (start settings compress store).Run calls state) {buffers : List (String × Bytes)}
    (hperm : buffers.Perm state.writer.buffers) (hallows : state.Allows (.flush now)) :
    ((state.reorder buffers).perform (.flush now)).Agrees (state.perform (.flush now)) := by
  obtain ⟨topics, htopics⟩ := exists_topics calls
  have hbuffer := (hrun.tracks hempty htopics).buffer_reorder hperm
  have hreordered : (state.reorder buffers).Allows (.flush now) := by
    refine ⟨hallows.1, fun topic => ?_⟩
    rw [hbuffer]
    exact hallows.2 topic
  refine agrees hempty (hrun.call _ hallows) ((hrun.reorder hperm).call _ hreordered) ?_
  exact List.forall₂_same.mpr fun call _ => .refl call

/-- Whatever is asked of a writer, no entry is lost, doubled or moved before another, and topics with
    invalid names disturb no other. The order in which a flush goes through the topics makes no
    difference, neither to what it does itself nor to anything behind it. -/
theorem faithful (hsettings : settings.validate = .ok ()) (hlossless : Zstd.Lossless compress)
    (hempty : store.Records fun _ => []) (hrun : (start settings compress store).Run calls state) :
    state.Faithful settings calls ∧
      (∀ now buffers, buffers.Perm state.writer.buffers → state.Allows (.flush now) →
        ((state.reorder buffers).perform (.flush now)).Agrees (state.perform (.flush now))) ∧
      ∀ others other, (start settings compress store).Run others other →
        List.Forall₂ WriterCall.Alike others calls → other.Agrees state := by
  obtain ⟨hpos, hmax⟩ := settings.maxBuffer_of_validate hsettings
  obtain ⟨topics, htopics⟩ := exists_topics calls
  have htracks := hrun.tracks hempty htopics
  have hpending := fun topic => Ledger.pending_lt_ofCalls hpos topic calls
  refine ⟨⟨?_, ?_, ?_, ?_, ?_, ?_, htracks.entriesAdded, htracks.totalBytes_eq.symm⟩,
    fun now buffers hperm hallows => hrun.flush_agrees hempty hperm hallows,
    fun others other hother halike => hrun.agrees hempty hother halike⟩
  · intro topic hvalid hshort
    obtain ⟨stored, cursor, hcurrent, hplace, hvisit⟩ := htracks.read hlossless hvalid hshort
    exact ⟨stored, cursor, _, _, hcurrent, hplace, hvisit,
      htracks.decode_buffer hmax (hpending topic),
      Ledger.entries_ofCalls settings.maxBuffer topic calls⟩
  · intro topic hinvalid
    exact htracks.refused hinvalid
  · intro topic now hinvalid hsome
    exact htracks.flushTopic_refused hinvalid hsome now
  · intro known hknown
    exact (hrun.tracks hempty hknown).counts.failedBlocks
  · intro now hallows topic
    have hflush := htracks.flush hallows
    have hbuffer := congrFun hflush.buffer topic
    rw [Ledger.pending_flush] at hbuffer
    exact hbuffer
  · intro topic
    rw [htracks.buffer]
    exact hpending topic

/-- An entry that fills its buffer, one of a name that is refused, and a flush that meets the refused
    name first. -/
theorem faithful_beside_refused_name :
    let calls : List WriterCall := [.add "t" [1, 2, 3] ⟨0, 0⟩, .add "" [9] ⟨0, 0⟩, .flush ⟨0, 0⟩]
    ∃ state, (start { maxBuffer := 4 } Zstd.storing {}).Run calls state ∧
      state.Faithful { maxBuffer := 4 } calls ∧ state.writer.stats.failedBlocks = 1 ∧
      ∃ stored cursor, state.store.current "t" = .ok stored ∧
        Cursor.place stored.log.segments stored.log.maxOffset 0 = .ok cursor ∧
        cursor.visitEntries stored.dir Block.collect false [] =
          (.ok stored.log.maxOffset, [[1, 2, 3]]) := by
  intro calls
  have hfirst : (start { maxBuffer := 4 } Zstd.storing {}).Allows (.add "t" [1, 2, 3] ⟨0, 0⟩) := by
    refine ⟨by decide, fun _ _ _ => ⟨by decide, ⟨by decide +kernel, by decide +kernel⟩, ?_⟩⟩
    intro stored hcurrent
    have hempty : Store.current {} "t" = .ok ⟨{ topic := "t" }, {}⟩ := by decide +kernel
    obtain rfl := Except.ok.inj (hempty.symm.trans hcurrent)
    decide +kernel
  have hstart : (start { maxBuffer := 4 } Zstd.storing {}).Run []
      (start { maxBuffer := 4 } Zstd.storing {}) := .refl
  have hsecond := (hstart.call _ hfirst).call (.add "" [9] ⟨0, 0⟩)
    ⟨by decide, fun _ _ hvalid => absurd hvalid (by decide)⟩
  obtain ⟨state, hstate⟩ : ∃ state, state =
      ((start { maxBuffer := 4 } Zstd.storing {}).perform (.add "t" [1, 2, 3] ⟨0, 0⟩)).perform
        (.add "" [9] ⟨0, 0⟩) := ⟨_, rfl⟩
  rw [← hstate] at hsecond
  have hbuffers : state.writer.buffers = [("t", []), ("", [1, 9])] := by
    rw [hstate]
    decide +kernel
  have hperm : [("", [1, 9]), ("t", [])].Perm state.writer.buffers := by
    rw [hbuffers]
    exact .swap ..
  have hallows : (state.reorder [("", [1, 9]), ("t", [])]).Allows (.flush ⟨0, 0⟩) := by
    refine ⟨by decide, fun topic hsome hvalid => ?_⟩
    have hname := Writer.mem_topics_of_buffer hsome
    obtain rfl : topic = "" := List.mem_singleton.mp hname
    exact absurd hvalid (by decide)
  have hreordered := hsecond.reorder hperm
  have hrun := hreordered.call _ hallows
  have hempty := Store.Records.of_volume Volume.stores_empty
  obtain ⟨hbefore, -⟩ := faithful rfl Zstd.lossless_storing hempty hreordered
  obtain ⟨hfaithful, -⟩ := faithful rfl Zstd.lossless_storing hempty hrun
  refine ⟨_, hrun, hfaithful, ?_, ?_⟩
  · rw [hstate]
    decide +kernel
  · obtain ⟨stored, cursor, shown, pending, hcurrent, hplace, hvisit, hpending, hadded⟩ :=
      hfaithful.read "t" (by decide) (by decide)
    have hcalls : WriterCall.added "t" calls = [[1, 2, 3]] := by decide
    rw [hbefore.flushed _ hallows "t", Entries.decode_nil] at hpending
    obtain rfl := (Prod.mk.inj hpending).1
    rw [List.append_nil] at hadded
    obtain rfl : shown = [[1, 2, 3]] := hadded.trans hcalls
    exact ⟨stored, cursor, hcurrent, hplace, hvisit⟩

end Run

end Writing

end ReplicatedLog
