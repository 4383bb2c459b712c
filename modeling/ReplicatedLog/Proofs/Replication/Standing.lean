import ReplicatedLog.Proofs.Replication.Client
import ReplicatedLog.Proofs.Store.Opening
import ReplicatedLog.Proofs.Store.Readers
import ReplicatedLog.Proofs.Store.Writing

namespace ReplicatedLog

/-- How far the replication of a topic has come: the offset of the first byte not acknowledged, and
    the length of the publish that waits for its reply. -/
structure Standing where
  offset : Nat
  outstanding : Option Nat

/-- Readers of a log keep their places in another, and find no less to read there. -/
def TopicLog.Carries (log after : TopicLog) : Prop :=
  ∀ id halted cursor, log.Tracked id halted cursor →
    ∃ moved, after.Tracked id halted moved ∧ moved.offset = cursor.offset ∧
      (halted = false → cursor.available ≤ moved.available)

theorem TopicLog.Carries.refl (log : TopicLog) : log.Carries log :=
  fun _ _ cursor htracked => ⟨cursor, htracked, rfl, fun _ => le_rfl⟩

theorem TopicLog.Grown.carries {log after : TopicLog} {length : Nat}
    (hgrown : log.Grown length after) : log.Carries after :=
  fun _ _ _ htracked => htracked.grown hgrown

theorem TopicLog.Cleaned.carries {log after : TopicLog} {gate : Nat}
    (hcleaned : log.Cleaned gate after) (hordered : log.Ordered) (hgate : gate ≤ log.gate) :
    log.Carries after :=
  fun _ _ cursor htracked =>
    ⟨cursor, htracked.cleaned hordered hcleaned hgate, rfl, fun _ => le_rfl⟩

/-- The publication of a topic, if there is one, reads the open log of the topic, and what waits for
    a reply is still before its reader. -/
inductive Stands (store : Store) (topic : String) (log : TopicLog) :
    Option Publication → Option Standing → Prop
  | absent : Stands store topic log none none
  | present {publication : Publication} {cursor : Cursor}
      (hopen : store.peek? topic = some publication.handle.log)
      (htracked : log.Tracked publication.handle.reader publication.halted cursor)
      (hwaits : ∀ length, publication.outstanding = some length →
        publication.halted = false ∧ length ≤ cursor.available) :
      Stands store topic log (some publication) (some ⟨cursor.offset, publication.outstanding⟩)

/-- The reader behind a place. -/
theorem Stands.exists_tracked {store : Store} {topic : String} {log : TopicLog}
    {publication : Option Publication} {place : Standing}
    (hstands : Stands store topic log publication (some place)) :
    ∃ found cursor, publication = some found ∧ store.peek? topic = some found.handle.log ∧
      log.Tracked found.handle.reader found.halted cursor ∧ cursor.offset = place.offset ∧
      found.outstanding = place.outstanding := by
  cases hstands with
  | present hopen htracked hwaits => exact ⟨_, _, rfl, hopen, htracked, rfl, rfl⟩

theorem Stands.carry {store after : Store} {topic : String} {log other : TopicLog}
    {publication : Option Publication} {standing : Option Standing}
    (hstands : Stands store topic log publication standing) (hcarries : log.Carries other)
    (hopened : ∀ number, store.peek? topic = some number → after.peek? topic = some number) :
    Stands after topic other publication standing := by
  cases hstands with
  | absent => exact .absent
  | present hopen htracked hwaits =>
    obtain ⟨moved, hmoved, hoffset, havailable⟩ := hcarries _ _ _ htracked
    rw [← hoffset]
    refine .present (hopened _ hopen) hmoved fun length hlength => ?_
    obtain ⟨hreading, hle⟩ := hwaits length hlength
    exact ⟨hreading, hle.trans (havailable hreading)⟩

/-- Where a log without segments starts anew, nothing of it can wait for a reply. -/
theorem Stands.startedAt {store after : Store} {topic : String} {log : TopicLog}
    {publication : Option Publication} {standing : Option Standing}
    (hstands : Stands store topic log publication standing) (hordered : log.Ordered)
    (hempty : log.segments = []) (segment : Segment)
    (hopened : ∀ number, store.peek? topic = some number → after.peek? topic = some number) :
    ∃ place, Stands after topic (log.startedAt segment) publication place := by
  cases hstands with
  | absent => exact ⟨none, .absent⟩
  | present hopen htracked hwaits =>
    obtain ⟨moved, hmoved⟩ := htracked.startedAt segment
    refine ⟨_, .present (hopened _ hopen) hmoved fun length hlength => ?_⟩
    obtain ⟨hreading, hle⟩ := hwaits length hlength
    have hfollows := htracked.follows hreading
    have hfirst := TopicLog.firstOffset_of_nil hempty ▸ hfollows.firstOffset_le hordered
    have hlast := hfollows.available_le hordered
    exact ⟨hreading, by omega⟩

namespace Producer

/-- What a producer has of one topic. -/
structure Shows (producer : Producer) (topic : String) (stored : StoredLog) (history : Bytes)
    (standing : Option Standing) : Prop where
  current : producer.store.current topic = .ok stored
  keeps : stored.Keeps history
  numbered : stored.log.Numbered
  stands : Stands producer.store topic stored.log (producer.client.publication? topic) standing

/-- A producer changed in one topic only, and in that to what is told here. -/
structure Turns (producer : Producer) (topic : String) (stored : StoredLog) (history : Bytes)
    (standing : Option Standing) (after : Producer) : Prop where
  updates : producer.store.Updates topic stored after.store
  shows : after.Shows topic stored history standing
  touches : producer.client.Touches topic after.client

variable {producer after : Producer} {topic : String} {stored later : StoredLog}
  {history more : Bytes} {standing : Option Standing} {publication : Publication}
  {cursor moved : Cursor}

/-- A topic that was not turned to stays as it was. -/
theorem Turns.shows_of_ne (hturns : producer.Turns topic later more standing after)
    {other : String} {place : Option Standing} (hne : other ≠ topic)
    (hshort : other.utf8ByteSize ≤ maxNameLength)
    (hshows : producer.Shows other stored history place) :
    ∃ same, stored.Same same ∧ after.Shows other same history place := by
  obtain ⟨same, hsame, hlog⟩ := hturns.updates.others other stored hne hshort hshows.current
  refine ⟨same, hlog, hsame, hlog.keeps hshows.keeps, ?_, ?_⟩
  · rw [hlog.log]
    exact hshows.numbered
  · rw [hlog.log, hturns.touches.others other hne]
    exact hshows.stands.carry (.refl _) fun number => hturns.updates.opened other number

theorem Turns.trans {middle : Producer} {between : StoredLog} {place : Option Standing}
    (hfirst : producer.Turns topic between history place middle)
    (hsecond : middle.Turns topic stored more standing after) :
    producer.Turns topic stored more standing after where
  updates := hfirst.updates.trans hsecond.updates
  shows := hsecond.shows
  touches := hfirst.touches.trans hsecond.touches

/-- What a producer shows of a topic is a matter of its store and its publications. -/
theorem Shows.congr (hshows : producer.Shows topic stored history standing)
    (hstore : after.store = producer.store)
    (hpublications : after.client.publications = producer.client.publications) :
    after.Shows topic stored history standing := by
  refine ⟨?_, hshows.keeps, hshows.numbered, ?_⟩
  · rw [hstore]
    exact hshows.current
  · rw [hstore, Client.publication?_congr hpublications]
    exact hshows.stands

theorem Turns.congr (hturns : producer.Turns topic stored history standing after) {last : Producer}
    (hstore : last.store = after.store)
    (hpublications : last.client.publications = after.client.publications)
    (hsettings : last.client.settings = after.client.settings) :
    producer.Turns topic stored history standing last where
  updates := hstore ▸ hturns.updates
  shows := hturns.shows.congr hstore hpublications
  touches := hturns.touches.congr hpublications hsettings

/-- A change of a log that carries its readers leaves the replication where it was. -/
theorem Shows.turns (hshows : producer.Shows topic stored history standing)
    (hupdates : producer.store.Updates topic later after.store) (hkeeps : later.Keeps more)
    (hnumbered : later.log.Numbered) (hcarries : stored.log.Carries later.log)
    (htouches : producer.client.Touches topic after.client)
    (hpublication : after.client.publication? topic = producer.client.publication? topic) :
    producer.Turns topic later more standing after where
  updates := hupdates
  shows := ⟨hupdates.current, hkeeps, hnumbered, hpublication ▸
    hshows.stands.carry hcarries fun number => hupdates.opened topic number⟩
  touches := htouches

theorem Shows.turns_self (hshows : producer.Shows topic stored history standing)
    (hcoherent : producer.store.Coherent) :
    producer.Turns topic stored history standing producer :=
  hshows.turns (hcoherent.updates_self hshows.current) hshows.keeps hshows.numbered (.refl _)
    (.refl _ _) rfl

/-- The client hears of a change of the logs, which does not move it. -/
theorem Shows.turns_change (hshows : producer.Shows topic stored history standing) {α : Type}
    {work : Store → α × Store}
    (hupdates : producer.store.Updates topic later (work producer.store).2)
    (hkeeps : later.Keeps more) (hnumbered : later.log.Numbered)
    (hcarries : stored.log.Carries later.log) :
    producer.Turns topic later more standing (producer.change work).2 := by
  obtain ⟨hpublications, hsettings⟩ := Client.publications_notice producer.client
    ((work producer.store).2.events.drop producer.store.events.length)
  exact hshows.turns hupdates hkeeps hnumbered hcarries
    ((Client.Touches.refl _ topic).congr hpublications hsettings)
    (Client.publication?_congr hpublications topic)

/-- The reader of a publication moved, and the publication says what waits there. -/
theorem Shows.turns_setCursor (hshows : producer.Shows topic stored history standing)
    (htracked : stored.log.Tracked publication.handle.reader publication.halted cursor)
    (hopen : producer.store.peek? topic = some publication.handle.log)
    (hupdates : producer.store.Updates topic
      { stored with log := stored.log.setCursor publication.handle.reader moved } after.store)
    (htouches : producer.client.Touches topic after.client)
    (hmax : moved.maxOffset = stored.log.maxOffset) (hbounded : moved.offset ≤ stored.log.maxOffset)
    {offset : Nat} (hoffset : moved.offset = offset) {outstanding : Option Nat}
    (hfound : ∃ found, after.client.publication? topic = some found ∧
      found.handle = publication.handle ∧ found.outstanding = outstanding ∧
      (found.halted = false → moved.Follows stored.log) ∧
      (∀ length, outstanding = some length → found.halted = false ∧ length ≤ moved.available)) :
    producer.Turns topic
      { stored with log := stored.log.setCursor publication.handle.reader moved } history
      (some ⟨offset, outstanding⟩) after where
  updates := hupdates
  shows := by
    obtain ⟨found, hfound, hhandle, rfl, hfollows, hwaits⟩ := hfound
    subst hoffset
    refine ⟨hupdates.current, hshows.keeps.of_log_eq rfl rfl rfl,
      TopicLog.numbered_setCursor hshows.numbered, ?_⟩
    rw [hfound]
    refine .present ?_ ?_ hwaits
    · rw [hhandle]
      exact hupdates.opened topic _ hopen
    · rw [hhandle]
      exact htracked.setCursor hmax hbounded hfollows
  touches := htouches

/-- What is appended becomes part of history, unless the name of its topic is invalid. -/
theorem Shows.append_spec (hshows : producer.Shows topic stored history standing)
    (hcoherent : producer.store.Coherent) (hshort : topic.utf8ByteSize ≤ maxNameLength)
    (data : Bytes) (rollSize : Nat) {now : Instant} (hnow : now.InCalendar)
    (hfits : (history ++ data).length ≤ Decimal.maxValue) :
    ∃ later more, producer.Turns topic later more standing
        (producer.change fun store => store.append topic data rollSize now).2 ∧
      later.log.firstOffset = stored.log.firstOffset ∧
      (more = history ++ data ∨ ¬ Topic.IsValid topic ∧ more = history) := by
  rcases hcoherent.append_spec hshows.current hshort hshows.keeps data rollSize hnow hfits with
    ⟨hinvalid, fault, happend⟩ | ⟨grown, store, happend, hupdates, hkeeps, hgrown⟩
  · have hself := hcoherent.updates_self hshows.current
    refine ⟨stored, history, hshows.turns_change ?_ hshows.keeps hshows.numbered (.refl _), rfl,
      Or.inr ⟨hinvalid, rfl⟩⟩
    rw [happend]
    exact hself
  · refine ⟨grown, _, hshows.turns_change ?_ hkeeps (hgrown.numbered hshows.numbered)
      hgrown.carries, hgrown.firstOffset_eq, Or.inl rfl⟩
    rw [happend]
    exact hupdates

/-- A cleanup of a topic, whichever it is, stays behind every reader. -/
theorem Shows.clean_spec (hshows : producer.Shows topic stored history standing)
    (hcoherent : producer.store.Coherent) (hshort : topic.utf8ByteSize ≤ maxNameLength) {α : Type}
    {work : StoredLog → Except Fault α × StoredLog} (hkeeps : (work stored).2.Keeps history)
    {gate : Nat} (hcleaned : stored.log.Cleaned gate (work stored).2.log)
    (hgate : gate ≤ stored.log.gate) (hid : (work stored).2.dir.nextId = stored.dir.nextId) :
    ∃ later, producer.Turns topic later history standing
        (producer.change fun store => store.onTopic topic work).2 ∧
      stored.log.Cleaned gate later.log := by
  obtain ⟨-, parts, hlaid, -⟩ := id hkeeps
  have hname := (hcoherent.topic_of_current hshows.current).1
  rcases hcoherent.onTopic_spec hshows.current hshort work (hcleaned.topic_eq.trans hname)
      hlaid.sound hid.ge with ⟨-, fault, hfailed⟩ | ⟨store, hdone, hupdates⟩
  · have hself := hcoherent.updates_self hshows.current
    refine ⟨stored, hshows.turns_change ?_ hshows.keeps hshows.numbered (.refl _), .same _⟩
    rw [hfailed]
    exact hself
  · refine ⟨_, hshows.turns_change ?_ hkeeps (hcleaned.numbered hshows.numbered)
      (hcleaned.carries hshows.keeps.ordered hgate), hcleaned⟩
    rw [hdone]
    exact hupdates

end Producer

end ReplicatedLog
