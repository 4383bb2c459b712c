import ReplicatedLog.Proofs.Replication.Fidelity
import ReplicatedLog.Proofs.Replication.Marks
import ReplicatedLog.Proofs.Replication.Resuming

namespace ReplicatedLog

namespace Exchange

variable {topic : String} {action : System.Action} {exchange after : Exchange}

/-- A topic goes on no further back than it was, nor further back than its log starts. -/
theorem le_resumes {reply : Packet} {first last offset length : Nat} (hfirst : first ≤ offset) :
    first ≤ reply.resumes first last offset length := by
  cases reply with
  | publish => exact hfirst
  | ack name => exact hfirst.trans (Nat.le_add_right _ _)
  | reset name place =>
    change first ≤ if first ≤ place ∧ place ≤ last then place else offset
    split
    next hwithin => exact hwithin.1
    · exact hfirst
  | failure name => exact hfirst

/-- A topic that is replicated stays so, within its log. -/
theorem Step.within (hstep : exchange.Step topic action after)
    (hstays : ∀ handle, action ≠ .remove handle)
    (hwithin : ∃ place, exchange.standing = some place ∧ exchange.first ≤ place.offset) :
    ∃ place, after.standing = some place ∧ after.first ≤ place.offset := by
  obtain ⟨place, hplace, hfirst⟩ := hwithin
  cases hstep with
  | cleaned first haction hbefore =>
    exact ⟨place, hplace, (hbefore place hplace).trans (max_le hfirst le_rfl)⟩
  | joined offset haction hnone => exact absurd (hplace.symm.trans hnone) (by simp)
  | left handle haction => exact absurd haction (hstays handle)
  | published offset length hstanding hstart => exact ⟨_, rfl, hstart⟩
  | answered reply back offset length hflight hreply hstanding =>
    obtain rfl := Option.some.inj (hplace.symm.trans hstanding)
    exact ⟨_, rfl, le_resumes hfirst⟩
  | refused reply back offset length hflight hreply hstanding =>
    obtain rfl := Option.some.inj (hplace.symm.trans hstanding)
    exact ⟨_, rfl, hfirst⟩
  | lost => exact ⟨place.rest, congrArg (Option.map Standing.rest) hplace, hfirst⟩
  | _ => exact ⟨place, hplace, hfirst⟩

/-- A topic that is not replicated stays so unless it is taken up. -/
theorem Step.standing_eq_none (hstep : exchange.Step topic action after)
    (hjoins : ∀ offset, ¬ action.Joins topic offset) (hnone : exchange.standing = none) :
    after.standing = none := by
  cases hstep with
  | joined offset haction => exact absurd haction (hjoins offset)
  | left => rfl
  | published offset length hstanding => exact absurd (hstanding.symm.trans hnone) (by simp)
  | answered reply back offset length hflight hreply hstanding =>
    exact absurd (hstanding.symm.trans hnone) (by simp)
  | refused reply back offset length hflight hreply hstanding =>
    exact absurd (hstanding.symm.trans hnone) (by simp)
  | lost => exact congrArg (Option.map Standing.rest) hnone
  | _ => exact hnone

/-- A topic after a start of the client: at a place, if it is replicated at all, and with nothing
    under way. -/
def restarted (exchange : Exchange) (place : Option Nat) : Exchange :=
  { exchange with standing := place.map (⟨·, none⟩), flight := [] }

theorem restarted_anchored {place : Option Nat}
    (hplace : ∀ offset, place = some offset →
      offset ≤ exchange.received.length ∧ exchange.first ≤ exchange.received.length) :
    (exchange.restarted place).Credited ∧ (exchange.restarted place).Anchored := by
  have hrest : ∀ offset length,
      (exchange.restarted place).standing ≠ some ⟨offset, some length⟩ := by
    intro offset length
    cases place <;> simp [restarted]
  refine ⟨⟨fun _ _ => rfl, fun offset length hwaiting => absurd hwaiting (hrest offset length)⟩,
    ⟨fun _ => rfl, fun standing hstanding => ?_, fun offset length hwaiting =>
      absurd hwaiting (hrest offset length), nofun⟩⟩
  obtain ⟨offset, rfl, rfl⟩ := Option.map_eq_some_iff.mp hstanding
  exact hplace offset rfl

end Exchange

namespace System

/-- The files of the client. -/
def left (system : System) : SyncInput where
  data := system.producer.store.volume
  offsets := system.producer.checkpoints

/-- The client ends, and starts again on the files that it left. -/
def relaunch (system : System) (topics : List String) (settings : SyncSettings) (now : Instant) :
    Except Fault Unit × System :=
  let (outcome, producer) := Producer.resumeAll now topics (system.left.producer settings)
  (outcome, { system.lose with producer })

/-- What happens to a system whose client is started again from moment to moment. -/
inductive Occurrence
  | act (action : Action)
  | relaunch (settings : SyncSettings) (now : Instant)

/-- What an occurrence adds to the log of a topic. -/
def Occurrence.adds (topic : String) : Occurrence → Bytes
  | .act action => action.adds topic
  | .relaunch .. => []

/-- All that was ever appended to the log of a topic. -/
def appended (topic : String) (occurrences : List Occurrence) : Bytes :=
  occurrences.flatMap (Occurrence.adds topic)

/-- A client was started with some topics. Since then there were actions on these, and starts with
    the same topics and settings of any kind. -/
inductive Lives (topics : List String) (start : System) : List Occurrence → System → Prop
  | launch (settings : SyncSettings) {now : Instant} (hnow : now.InCalendar) :
      Lives topics start [] (start.relaunch topics settings now).2
  | act {occurrences : List Occurrence} {system : System}
      (hlives : Lives topics start occurrences system) (action : Action)
      (hfits : system.Fits action) (hwithin : action.Within topics) :
      Lives topics start (occurrences ++ [.act action]) (system.perform action)
  | relaunch {occurrences : List Occurrence} {system : System}
      (hlives : Lives topics start occurrences system) (settings : SyncSettings) {now : Instant}
      (hnow : now.InCalendar) :
      Lives topics start (occurrences ++ [.relaunch settings now])
        (system.relaunch topics settings now).2

/-- A system whose client can be started again: each topic has a checkpoint within its log, and within
    what the service has of it. -/
structure Recoverable (topics : List String) (system : System) (publishes replies : List Packet)
    (exchanges : String → Exchange) : Prop where
  reflects : system.Reflects publishes replies exchanges
  shelf : ∃ dir, system.producer.sinks = [.checkpoints dir] ∧ Checkpoint.Shelf dir
  marks : ∀ topic ∈ topics, ∃ mark,
    Checkpoint.load system.producer.checkpoints topic = .ok mark ∧
      (exchanges topic).first ≤ mark.getD 0 ∧ mark.getD 0 ≤ (exchanges topic).received.length
  unlisted : ∀ topic ∉ topics, topic.utf8ByteSize ≤ maxNameLength →
    (exchanges topic).history = []

/-- A system whose client was started: each topic is where its checkpoint says, and nothing is known
    of any other. -/
structure Running (topics : List String) (system : System) (publishes replies : List Packet)
    (exchanges : String → Exchange) : Prop where
  reflects : system.Reflects publishes replies exchanges
  anchored : ∀ topic, topic.utf8ByteSize ≤ maxNameLength →
    (exchanges topic).Credited ∧ (exchanges topic).Anchored
  marked : system.producer.Marked topics
  within : ∀ topic ∈ topics, ∃ place, (exchanges topic).standing = some place ∧
    (exchanges topic).first ≤ place.offset
  unlisted : ∀ topic ∉ topics, topic.utf8ByteSize ≤ maxNameLength →
    (exchanges topic).standing = none ∧ (exchanges topic).history = []

variable {topics : List String} {system : System} {publishes replies : List Packet}
  {exchanges : String → Exchange} {topic : String} {action : Action} {now : Instant}

theorem Running.exists_mark (hrunning : Running topics system publishes replies exchanges)
    (hmem : topic ∈ topics) (hshort : topic.utf8ByteSize ≤ maxNameLength) :
    ∃ place mark, (exchanges topic).standing = some place ∧
      Checkpoint.load system.producer.checkpoints topic = .ok mark ∧ mark.getD 0 = place.offset ∧
      (exchanges topic).first ≤ place.offset ∧
      place.offset ≤ (exchanges topic).received.length := by
  obtain ⟨place, hplace, hfirst⟩ := hrunning.within topic hmem
  obtain ⟨mark, hload, hmark⟩ := hrunning.marked.marks topic hmem
  rw [hrunning.reflects.reached?_eq hshort, hplace, Option.map_some, Option.some.injEq] at hmark
  exact ⟨place, mark, hplace, hload, hmark.symm, hfirst,
    ((hrunning.anchored topic hshort).2.place place hplace).1⟩

theorem Running.recoverable (hrunning : Running topics system publishes replies exchanges)
    (hstorable : ∀ topic ∈ topics, Checkpoint.Storable topic) :
    Recoverable topics system publishes replies exchanges where
  reflects := hrunning.reflects
  shelf := hrunning.marked.shelf
  marks topic hmem := by
    obtain ⟨place, mark, -, hload, hmark, hfirst, hlast⟩ :=
      hrunning.exists_mark hmem (hstorable topic hmem).topic_short
    exact ⟨mark, hload, hmark ▸ hfirst, hmark ▸ hlast⟩
  unlisted topic hout hshort := (hrunning.unlisted topic hout hshort).2

/-- A client that was started goes on until it is started again. -/
theorem Running.perform (hrunning : Running topics system publishes replies exchanges)
    (hstorable : ∀ topic ∈ topics, Checkpoint.Storable topic) (hfits : system.Fits action)
    (hwithin : action.Within topics) :
    ∃ publishes replies next, Running topics (system.perform action) publishes replies next ∧
      ∀ topic ∈ topics,
        (next topic).history = (exchanges topic).history ++ action.adds topic ∧
        (next topic).floor = (exchanges topic).floor := by
  obtain ⟨hreflects, hanchored, hmarked, hplaces, hunlisted⟩ := hrunning
  obtain ⟨morePublishes, moreReplies, next, hnext, hsteps⟩ := hreflects.perform action hfits
  have hanchors : system.Anchors action := by
    cases action with
    | register | enlist | remove => exact hwithin.elim
    | _ => trivial
  have hstays : ∀ handle, action ≠ .remove handle := by
    rintro handle rfl
    exact hwithin
  have hjoins : ∀ topic offset, ¬ action.Joins topic offset := by
    rintro topic offset (rfl | ⟨name, rfl⟩) <;> exact hwithin
  have hshort : ∀ topic ∈ topics, topic.utf8ByteSize ≤ maxNameLength :=
    fun topic hmem => (hstorable topic hmem).topic_short
  refine ⟨morePublishes, moreReplies, next, ⟨hnext, fun topic hname => ?_, ?_, fun topic hmem => ?_,
    fun topic hout hname => ?_⟩, fun topic hmem => ?_⟩
  · exact hreflects.anchored_step hname hanchors (hanchored topic hname) (hsteps topic hname).1
  · by_cases hdeliver : ∃ moment, action = .deliver moment
    · obtain ⟨moment, rfl⟩ := hdeliver
      exact hreflects.marked_deliver hanchored (fun topic hout hname => (hunlisted topic hout hname).1)
        hstorable hmarked moment
    · exact (hreflects.rests_perform hfits hwithin (not_exists.mp hdeliver)).marked hshort hmarked
  · exact (hsteps topic (hshort topic hmem)).1.within hstays (hplaces topic hmem)
  · obtain ⟨hnone, hnil⟩ := hunlisted topic hout hname
    have hstep := (hsteps topic hname).1
    refine ⟨hstep.standing_eq_none (hjoins topic) hnone, (hstep.history_eq ?_).trans hnil⟩
    rintro data rollSize now rfl
    exact hout hwithin
  · obtain ⟨hstep, hadds⟩ := hsteps topic (hshort topic hmem)
    exact ⟨hadds (hstorable topic hmem).valid, hstep.floor_eq⟩

/-- A client that starts finds what remains of all logs. -/
theorem Reflects.exists_finds (hreflects : system.Reflects publishes replies exchanges)
    (hshort : topic.utf8ByteSize ≤ maxNameLength) (settings : SyncSettings) :
    ∃ stored, (system.left.producer settings).Finds topic stored (exchanges topic).first
      (exchanges topic).history := by
  obtain ⟨⟨stored, hstored, hfirst⟩, -, -, -⟩ := hreflects.shows topic hshort
  rw [← hfirst]
  exact hstored.exists_finds hreflects.sound.producer settings _

/-- A client that starts has lost all that was under way, and nothing else if it finds its topics
    where they were. -/
theorem Reflects.restarted (hreflects : system.Reflects publishes replies exchanges)
    {producer : Producer} {place : String → Option Nat} (hcoherent : producer.store.Coherent)
    (hdistinct : producer.client.Distinct) (hsinks : producer.sinks = system.producer.sinks)
    (hnamed : ∀ topic publication, producer.client.publication? topic = some publication →
      topic.utf8ByteSize ≤ maxNameLength)
    (hshows : ∀ topic, topic.utf8ByteSize ≤ maxNameLength → ∃ stored,
      producer.Shows topic stored (exchanges topic).history ((place topic).map (⟨·, none⟩)) ∧
        stored.log.firstOffset = (exchanges topic).first) :
    Reflects { system.lose with producer } [] [] fun topic =>
      (exchanges topic).restarted (place topic) := by
  refine ⟨⟨hcoherent, hdistinct, hnamed, hreflects.sound.service, hreflects.sound.handlers,
    Or.inl ⟨rfl, rfl, rfl⟩⟩, .nil, fun topic hshort => ?_,
    fun topic hshort => ⟨(hreflects.faithful topic hshort).received, nofun⟩⟩
  obtain ⟨-, hservice, -, htold⟩ := hreflects.shows topic hshort
  exact ⟨hshows topic hshort, hservice, rfl, fun offset hplaced => htold offset (hsinks ▸ hplaced)⟩

/-- The topics of a client with the places where they go on, which are none for other topics. -/
def places (topics : List String) (place : String → Nat) (topic : String) : Option Nat :=
  if topic ∈ topics then some (place topic) else none

theorem places_of_mem {place : String → Nat} (hmem : topic ∈ topics) :
    places topics place topic = some (place topic) :=
  if_pos hmem

theorem places_of_not_mem {place : String → Nat} (hout : topic ∉ topics) :
    places topics place topic = none :=
  if_neg hout

namespace Recoverable

variable {place : String → Nat} {settings : SyncSettings} {producer : Producer}

theorem exists_place (hrecoverable : Recoverable topics system publishes replies exchanges) :
    ∃ place : String → Nat, ∀ topic ∈ topics,
      (∃ mark, Checkpoint.load system.producer.checkpoints topic = .ok mark ∧
        mark.getD 0 = place topic) ∧
      (exchanges topic).first ≤ place topic ∧
      place topic ≤ (exchanges topic).received.length := by
  choose! mark hload hfirst hlast using hrecoverable.marks
  exact ⟨fun topic => (mark topic).getD 0, fun topic hmem =>
    ⟨⟨mark topic, hload topic hmem, rfl⟩, hfirst topic hmem, hlast topic hmem⟩⟩

theorem awaits (hrecoverable : Recoverable topics system publishes replies exchanges)
    (hstorable : Checkpoint.Storable topic)
    (hmark : ∃ mark, Checkpoint.load system.producer.checkpoints topic = .ok mark ∧
      mark.getD 0 = place topic)
    (hfirst : (exchanges topic).first ≤ place topic)
    (hlast : place topic ≤ (exchanges topic).received.length) (settings : SyncSettings) :
    (system.left.producer settings).Awaits topic (exchanges topic).first (place topic)
      (exchanges topic).history := by
  have hreflects := hrecoverable.reflects
  have hshort := hstorable.topic_short
  obtain ⟨⟨stored, hstored, -⟩, -, -, -⟩ := hreflects.shows topic hshort
  obtain ⟨hlength, parts, hlaid, -⟩ := id hstored.keeps
  exact ⟨hstorable, hreflects.exists_finds hshort settings, hmark, hfirst,
    hlast.trans (hreflects.faithful topic hshort).received.length_le, hlength ▸ hlaid.bounded⟩

/-- The sinks that a client leaves are those with which the next one starts. -/
theorem sinks_left (hrecoverable : Recoverable topics system publishes replies exchanges)
    (settings : SyncSettings) :
    (system.left.producer settings).sinks = system.producer.sinks := by
  obtain ⟨dir, hsinks, -⟩ := hrecoverable.shelf
  change [Sink.checkpoints system.producer.checkpoints] = system.producer.sinks
  rw [Producer.checkpoints, hsinks]
  rfl

/-- A client that took up its topics again shows of every topic what the one before showed. -/
theorem restarted (hrecoverable : Recoverable topics system publishes replies exchanges)
    (hstorable : ∀ topic ∈ topics, Checkpoint.Storable topic)
    (htakes : (system.left.producer settings).TakesIn topics producer)
    (hshows : ∀ topic ∈ topics, ∃ later,
      producer.Shows topic later (exchanges topic).history (some ⟨place topic, none⟩) ∧
        later.log.firstOffset = (exchanges topic).first) :
    Reflects { system.lose with producer } [] [] fun topic =>
      (exchanges topic).restarted (places topics place topic) := by
  have hreflects := hrecoverable.reflects
  refine hreflects.restarted htakes.coherent htakes.distinct
    (htakes.sinks.trans (hrecoverable.sinks_left settings)) (fun topic publication hfound => ?_)
    fun topic hshort => ?_
  · by_contra hlong
    have hnone := htakes.publications topic fun hmem => hlong (hstorable topic hmem).topic_short
    rw [hfound] at hnone
    cases hnone
  · by_cases hmem : topic ∈ topics
    · rw [places_of_mem hmem]
      exact hshows topic hmem
    · obtain ⟨stored, hfound⟩ := hreflects.exists_finds hshort settings
      rw [hrecoverable.unlisted topic hmem hshort] at hfound ⊢
      obtain ⟨hblank, hstart⟩ := hfound.shows_of_nil
      obtain ⟨same, hsame, hafter⟩ := htakes.others topic hmem hshort _ _ _ hblank
      rw [places_of_not_mem hmem]
      exact ⟨same, hafter, hsame.log ▸ hstart⟩

/-- Each topic goes on after a start where its checkpoint says. -/
theorem relaunch (hrecoverable : Recoverable topics system publishes replies exchanges)
    (hnodup : topics.Nodup) (hstorable : ∀ topic ∈ topics, Checkpoint.Storable topic)
    (settings : SyncSettings) (hnow : now.InCalendar) :
    ∃ resumed next, system.relaunch topics settings now = (.ok (), resumed) ∧
      Running topics resumed [] [] next ∧ resumed.producer.sinks = system.producer.sinks ∧
      ∀ topic ∈ topics, (next topic).history = (exchanges topic).history ∧
        (next topic).floor = (exchanges topic).floor := by
  obtain ⟨place, hplace⟩ := hrecoverable.exists_place
  have hcoherent : (system.left.producer settings).store.Coherent := nofun
  have hdistinct : (system.left.producer settings).client.Distinct := nofun
  obtain ⟨producer, hresume, htakes, hshows⟩ :=
    Producer.resumeAll_spec hnodup hnow hcoherent hdistinct fun topic hmem => by
      obtain ⟨hmark, hfirst, hlast⟩ := hplace topic hmem
      exact hrecoverable.awaits (hstorable topic hmem) hmark hfirst hlast settings
  have hnext := hrecoverable.restarted hstorable htakes hshows
  have hsinks := htakes.sinks.trans (hrecoverable.sinks_left settings)
  refine ⟨{ system.lose with producer }, _, ?_, ⟨hnext, fun topic hshort => ?_,
    ⟨hsinks ▸ hrecoverable.shelf, fun topic hmem => ?_⟩, fun topic hmem => ?_,
    fun topic hout hshort => ⟨?_, hrecoverable.unlisted topic hout hshort⟩⟩, hsinks,
    fun topic _ => ⟨rfl, rfl⟩⟩
  · simp only [System.relaunch, hresume]
  · refine Exchange.restarted_anchored fun offset hoffset => ?_
    by_cases hmem : topic ∈ topics
    · obtain rfl := Option.some.inj ((places_of_mem hmem).symm.trans hoffset)
      obtain ⟨-, hfirst, hlast⟩ := hplace topic hmem
      exact ⟨hlast, hfirst.trans hlast⟩
    · rw [places_of_not_mem hmem] at hoffset
      cases hoffset
  · obtain ⟨mark, hload, hmark⟩ := (hplace topic hmem).1
    refine ⟨mark, ?_, ?_⟩
    · change Checkpoint.load producer.checkpoints topic = _
      rw [Producer.checkpoints, hsinks]
      exact hload
    · rw [hnext.reached?_eq (hstorable topic hmem).topic_short, Exchange.restarted,
        places_of_mem hmem, hmark]
      rfl
  · refine ⟨⟨place topic, none⟩, ?_, (hplace topic hmem).2.1⟩
    rw [Exchange.restarted, places_of_mem hmem]
    rfl
  · rw [Exchange.restarted, places_of_not_mem hout]
    rfl

end Recoverable

variable {volume other : Volume} {settings : SyncSettings} {dir : Directory} {rollSize : Nat}
  {occurrences : List Occurrence}

/-- A client that starts on nothing has nothing to go on with. -/
theorem Recoverable.start (hclient : volume.Stores (fun _ => 0) fun _ => [])
    (hservice : other.Stores (fun _ => 0) fun _ => []) (hshelf : Checkpoint.Shelf dir)
    (hblank : ∀ topic ∈ topics, Checkpoint.load dir topic = .ok none) (settings : SyncSettings)
    (rollSize : Nat) :
    Recoverable topics (start volume other settings [.checkpoints dir] rollSize) [] []
      (fresh [.checkpoints dir] (fun _ => 0) (fun _ => 0) (fun _ => []) fun _ => []) where
  reflects := .start hclient hservice (fun _ _ => List.prefix_refl _) settings _ rollSize
  shelf := ⟨dir, rfl, hshelf⟩
  marks topic hmem := ⟨none, hblank topic hmem, le_rfl, le_rfl⟩
  unlisted _ _ _ := rfl

/-- Through all its lives a client knows all that was ever appended. -/
theorem Lives.running (hclient : volume.Stores (fun _ => 0) fun _ => [])
    (hservice : other.Stores (fun _ => 0) fun _ => []) (hshelf : Checkpoint.Shelf dir)
    (hblank : ∀ topic ∈ topics, Checkpoint.load dir topic = .ok none) (hnodup : topics.Nodup)
    (hstorable : ∀ topic ∈ topics, Checkpoint.Storable topic)
    (hlives : Lives topics (start volume other settings [.checkpoints dir] rollSize) occurrences
      system) :
    ∃ publishes replies exchanges, Running topics system publishes replies exchanges ∧
      ∀ topic ∈ topics, (exchanges topic).history = appended topic occurrences ∧
        (exchanges topic).floor = 0 := by
  induction hlives with
  | launch first hnow =>
    obtain ⟨resumed, next, hrelaunch, hrunning, -, hsame⟩ :=
      (Recoverable.start hclient hservice hshelf hblank settings rollSize).relaunch hnodup hstorable
        first hnow
    rw [hrelaunch]
    exact ⟨[], [], next, hrunning, hsame⟩
  | act hlives action hfits hwithin ih =>
    obtain ⟨publishes, replies, exchanges, hrunning, hhistory⟩ := ih
    obtain ⟨morePublishes, moreReplies, next, hnext, hadds⟩ :=
      hrunning.perform hstorable hfits hwithin
    refine ⟨morePublishes, moreReplies, next, hnext, fun topic hmem => ?_⟩
    obtain ⟨hall, hfloor⟩ := hhistory topic hmem
    obtain ⟨hgrown, hsame⟩ := hadds topic hmem
    refine ⟨?_, hsame.trans hfloor⟩
    rw [hgrown, hall, appended, appended, List.flatMap_append, List.flatMap_singleton]
    rfl
  | relaunch hlives later hnow ih =>
    obtain ⟨publishes, replies, exchanges, hrunning, hhistory⟩ := ih
    obtain ⟨resumed, next, hrelaunch, hnext, -, hsame⟩ :=
      (hrunning.recoverable hstorable).relaunch hnodup hstorable later hnow
    rw [hrelaunch]
    refine ⟨[], [], next, hnext, fun topic hmem => ?_⟩
    obtain ⟨hall, hfloor⟩ := hhistory topic hmem
    obtain ⟨hkept, hstart⟩ := hsame topic hmem
    refine ⟨?_, hstart.trans hfloor⟩
    rw [hkept, hall, appended, appended, List.flatMap_append, List.flatMap_singleton]
    exact (List.append_nil _).symm

/-- A client can be started again at any time, and then has of each topic all that was ever appended,
    whatever was cleaned up of it: its log ends where that does. Its reader is where the checkpoint
    says, which needs no clamping, and the service has everything before that. -/
theorem Lives.resumes_in_place (hclient : volume.Stores (fun _ => 0) fun _ => [])
    (hservice : other.Stores (fun _ => 0) fun _ => []) (hshelf : Checkpoint.Shelf dir)
    (hblank : ∀ topic ∈ topics, Checkpoint.load dir topic = .ok none) (hnodup : topics.Nodup)
    (hstorable : ∀ topic ∈ topics, Checkpoint.Storable topic)
    (hlives : Lives topics (start volume other settings [.checkpoints dir] rollSize) occurrences
      system) (later : SyncSettings) (hnow : now.InCalendar) :
    ∃ resumed, system.relaunch topics later now = (.ok (), resumed) ∧
      ∀ topic ∈ topics, ∃ stored publication reader mark kept,
        resumed.producer.store.current topic = .ok stored ∧
        stored.Holds stored.log.firstOffset (appended topic occurrences) ∧
        resumed.producer.client.publication? topic = some publication ∧
        resumed.producer.store.reader? publication.handle = some (stored.log, reader) ∧
        Checkpoint.load system.producer.checkpoints topic = .ok mark ∧
        reader.cursor.offset = mark.getD stored.log.firstOffset ∧
        stored.log.firstOffset ≤ reader.cursor.offset ∧
        reader.cursor.offset ≤ stored.log.maxOffset ∧
        resumed.peer.service.store.current topic = .ok kept ∧
        kept.Holds 0 ((appended topic occurrences).take kept.log.maxOffset) ∧
        reader.cursor.offset ≤ kept.log.maxOffset := by
  obtain ⟨publishes, replies, exchanges, hrunning, hhistory⟩ :=
    hlives.running hclient hservice hshelf hblank hnodup hstorable
  obtain ⟨resumed, next, hrelaunch, hnext, hsinks, hsame⟩ :=
    (hrunning.recoverable hstorable).relaunch hnodup hstorable later hnow
  refine ⟨resumed, hrelaunch, fun topic hmem => ?_⟩
  have hshort := (hstorable topic hmem).topic_short
  obtain ⟨hall, hfloor⟩ := hhistory topic hmem
  obtain ⟨hkept, hstart⟩ := hsame topic hmem
  obtain ⟨place, mark, hplace, hload, hmark, hfirst, hlast⟩ := hnext.exists_mark hmem hshort
  obtain ⟨stored, kept, hstored, hserved, hbegin, hend, hholds, hreplica⟩ :=
    hnext.reflects.exists_holds hshort
  rw [hkept, hall] at hholds hreplica
  rw [hstart, hfloor] at hreplica
  obtain ⟨⟨shown, hshows, -⟩, -, -, -⟩ := hnext.reflects.shows topic hshort
  obtain rfl := Except.ok.inj (hshows.current.symm.trans hstored)
  have hstands := hshows.stands
  rw [hplace] at hstands
  obtain ⟨publication, cursor, hfound, hopen, htracked, hoffset, -⟩ := hstands.exists_tracked
  obtain ⟨reader, hreader, rfl⟩ :=
    hnext.reflects.sound.producer.reader?_eq hopen hshows.current htracked.found
  have hwithin : shown.log.firstOffset ≤ mark.getD 0 := by
    rw [hmark, hbegin]
    exact hfirst
  have hresumes : reader.cursor.offset = mark.getD shown.log.firstOffset := by
    rw [hoffset, ← hmark]
    cases mark with
    | none => exact (Nat.le_zero.mp hwithin).symm
    | some offset => rfl
  refine ⟨shown, publication, reader, mark, kept, hstored, hholds, hfound, hreader, ?_, hresumes, ?_,
    htracked.bounded, hserved, hreplica, ?_⟩
  · rw [Producer.checkpoints, ← hsinks]
    exact hload
  · rw [hoffset, ← hmark]
    exact hwithin
  · rw [hoffset, hend]
    exact hlast

/-- Three bytes are replicated and cleaned up, so that no segment is left. After another start a
    fourth byte follows them. -/
theorem resumes_after_cleanup :
    let emptied := [.append "t" [1, 2, 3] 1000 ⟨0, 0⟩, .connect, .publish "t" ⟨0, 0⟩, .serve 0,
      .deliver ⟨0, 0⟩, .cleanupAll "t" 0 3 ⟨0, 0⟩].foldl perform
        ((start {} {} {} [.checkpoints {}] 1000).relaunch ["t"] {} ⟨0, 0⟩).2
    let system := (emptied.relaunch ["t"] {} ⟨0, 0⟩).2.perform (.append "t" [4] 1000 ⟨0, 0⟩)
    (emptied.producer.store.current "t").toOption.map (·.log.segments) = some [] ∧
      ∃ resumed, system.relaunch ["t"] {} ⟨0, 0⟩ = (.ok (), resumed) ∧
        ∃ stored, resumed.producer.store.current "t" = .ok stored ∧ stored.Holds 3 [1, 2, 3, 4] := by
  intro emptied system
  have hends : ∀ {system : System} {last : Nat},
      (system.producer.store.current "t").toOption.map (·.log.maxOffset) = some last →
      ∀ stored, system.producer.store.current "t" = .ok stored → stored.log.maxOffset = last := by
    intro system last hlast stored hstored
    rw [hstored] at hlast
    exact Option.some.inj hlast
  have hcalendar : Instant.InCalendar ⟨0, 0⟩ := by decide
  have hlaunched : Lives ["t"] (start {} {} {} [.checkpoints {}] 1000) [] _ := .launch {} hcalendar
  have happended := hlaunched.act (.append "t" [1, 2, 3] 1000 ⟨0, 0⟩) ⟨by decide, hcalendar,
    fun stored hstored => by
      rw [hends (show _ = some 0 by decide +kernel) stored hstored]
      decide⟩ List.mem_cons_self
  have hpublished := (happended.act .connect trivial trivial).act (.publish "t" ⟨0, 0⟩) trivial trivial
  have hanswered := (hpublished.act (.serve 0) (by unfold Fits; decide) trivial).act (.deliver ⟨0, 0⟩)
    trivial trivial
  have hemptied : Lives _ _ _ emptied := hanswered.act (.cleanupAll "t" 0 3 ⟨0, 0⟩)
    (by unfold Fits; decide) List.mem_cons_self
  have hlives : Lives _ _ _ system := (hemptied.relaunch {} hcalendar).act
    (.append "t" [4] 1000 ⟨0, 0⟩) ⟨by decide, hcalendar, fun stored hstored => by
      rw [hends (show _ = some 3 by decide +kernel) stored hstored]
      decide⟩ List.mem_cons_self
  have hblank : ∀ topic ∈ ["t"], Checkpoint.load {} topic = .ok none :=
    List.forall_mem_singleton.mpr (by decide)
  have hstorable : ∀ topic ∈ ["t"], Checkpoint.Storable topic :=
    List.forall_mem_singleton.mpr ⟨by decide, by decide⟩
  obtain ⟨resumed, hrelaunch, hall⟩ := hlives.resumes_in_place Volume.stores_empty
    Volume.stores_empty Checkpoint.Shelf.empty hblank (List.nodup_singleton _) hstorable {} hcalendar
  obtain ⟨stored, -, -, -, -, hstored, hholds, -⟩ := hall "t" List.mem_cons_self
  have hfirst : ((system.relaunch ["t"] {} ⟨0, 0⟩).2.producer.store.current "t").toOption.map
      (·.log.firstOffset) = some 3 := by decide +kernel
  rw [hrelaunch, hstored] at hfirst
  rw [show stored.log.firstOffset = 3 from Option.some.inj hfirst] at hholds
  exact ⟨by decide +kernel, resumed, hrelaunch, stored, hstored, hholds⟩

end System

end ReplicatedLog
