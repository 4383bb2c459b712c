import ReplicatedLog.Proofs.Replication.Standing

namespace ReplicatedLog

/-- Listeners do not matter to the readers of a log. -/
theorem TopicLog.Tracked.of_readers_eq {log after : TopicLog} {id : Nat} {halted : Bool}
    {cursor : Cursor} (htracked : log.Tracked id halted cursor) (hreaders : after.readers = log.readers)
    (hsegments : after.segments = log.segments) (hmax : after.maxOffset = log.maxOffset) :
    after.Tracked id halted cursor := by
  refine ⟨?_, htracked.maxOffset.trans hmax.symm, htracked.bounded.trans hmax.ge, fun hreading =>
    (htracked.follows hreading).congr hsegments hmax⟩
  rw [TopicLog.cursorOf?, hreaders]
  exact htracked.found

namespace Client

variable {client : Client} {topic : String}

/-- A client with a new publication, whose topic is woken. -/
theorem insert_spec {publication : Publication}
    (hnone : client.publication? publication.topic = none) {joined : Client}
    (hjoined : joined = wake { client with
      publications := insertPublication publication client.publications } publication.topic) :
    client.Touches publication.topic joined ∧
      joined.publication? publication.topic = some publication := by
  subst hjoined
  obtain ⟨hpublications, hsettings⟩ := publications_wake { client with
    publications := insertPublication publication client.publications } publication.topic
  have hinsert : client.Touches publication.topic
      { client with publications := insertPublication publication client.publications } :=
    ⟨fun _ hne => (publication?_insert hnone).trans (if_neg hne.symm),
      fun hdistinct => hdistinct.insert hnone, rfl⟩
  exact ⟨hinsert.congr hpublications hsettings,
    (publication?_congr hpublications _).trans ((publication?_insert hnone).trans (if_pos rfl))⟩

theorem touches_filter (client : Client) (topic : String) :
    client.Touches topic
      { client with publications := client.publications.filter fun old => old.topic ≠ topic } where
  others _ hne := publication?_filter.trans (if_neg hne)
  distinct hdistinct := hdistinct.filter
  settings := rfl

end Client

namespace Producer

variable {producer : Producer} {topic : String} {stored : StoredLog} {history : Bytes}
  {standing : Option Standing} {cursor : Cursor} {number : Nat}

/-- A new reader of a topic leaves its replication alone. -/
theorem Shows.addReader_spec (hshows : producer.Shows topic stored history standing)
    (hcoherent : producer.store.Coherent) (hshort : topic.utf8ByteSize ≤ maxNameLength)
    (hopen : producer.store.peek? topic = some number) (name : String) (offset : Nat) :
    (∃ fault after, stored.log.addReader name offset = .error fault ∧
        producer.store.addReader number name offset = (.error fault, after) ∧
        producer.Turns topic stored history standing { producer with store := after }) ∨
      ∃ id log cursor after, producer.store.addReader number name offset =
          (.ok ⟨number, id⟩, after) ∧
        producer.Turns topic { stored with log } history standing { producer with store := after } ∧
        log.firstOffset = stored.log.firstOffset ∧ log.Tracked id false cursor ∧
        cursor.offset = offset ∧
        ∀ publication, producer.client.publication? topic = some publication →
          publication.handle.reader ≠ id := by
  obtain ⟨-, parts, hlaid, -⟩ := id hshows.keeps
  rcases hcoherent.addReader_spec hopen hshows.current hshort hlaid.sound name offset with
    ⟨fault, after, hlog, hadd, hupdates⟩ | ⟨count, log, after, hlog, hadd, hupdates⟩
  · exact Or.inl ⟨fault, after, hlog, hadd, hshows.turns hupdates hshows.keeps hshows.numbered (.refl _)
      (.refl _ _) rfl⟩
  · obtain ⟨hcount, hnumbered, ⟨cursor, htracked, hoffset⟩, hothers⟩ :=
      TopicLog.addReader_spec hlog hshows.numbered hlaid.ordered
    obtain ⟨hkeeps, hfirst⟩ : StoredLog.Keeps { stored with log } history ∧
        log.firstOffset = stored.log.firstOffset := by
      obtain ⟨placed, -, heq⟩ := TopicLog.addReader_eq_ok hlog
      obtain ⟨-, rfl⟩ := Prod.mk.inj heq
      exact ⟨hshows.keeps.of_log_eq rfl rfl rfl, rfl⟩
    have hcarries : stored.log.Carries log := fun id halted place hplace =>
      ⟨place, hothers id halted place hplace, rfl, fun _ => le_rfl⟩
    refine Or.inr ⟨count, log, cursor, after, hadd,
      hshows.turns hupdates hkeeps hnumbered hcarries (.refl _ _) rfl, hfirst, htracked, hoffset, ?_⟩
    intro publication hfound hsame
    have hstands := hshows.stands
    rw [hfound] at hstands
    cases hstands with
    | present _ hplace _ => exact hplace.ne_nextReader hshows.numbered (hsame.trans hcount)

/-- A reader that no publication uses can be unregistered. -/
theorem Shows.removeReader_spec (hshows : producer.Shows topic stored history standing)
    (hcoherent : producer.store.Coherent) (hopen : producer.store.peek? topic = some number)
    (id : Nat) (hunused : ∀ publication, producer.client.publication? topic = some publication →
      publication.handle.reader ≠ id) :
    ∃ later, producer.Turns topic later history standing
        { producer with store := (producer.store.removeReader number ⟨number, id⟩).2 } ∧
      later.log.firstOffset = stored.log.firstOffset := by
  obtain ⟨log, hlog, hupdates⟩ := hcoherent.removeReader_spec hopen hshows.current id
  rcases hlog with rfl | rfl
  · exact ⟨_, hshows.turns hupdates hshows.keeps hshows.numbered (.refl _) (.refl _ _) rfl, rfl⟩
  · have hkeeps : StoredLog.Keeps { stored with log := stored.log.removeReader id } history :=
      hshows.keeps.of_log_eq rfl rfl rfl
    refine ⟨_, ⟨hupdates, ⟨hupdates.current, hkeeps,
      TopicLog.numbered_removeReader hshows.numbered, ?_⟩, .refl _ _⟩, rfl⟩
    have hstands := hshows.stands
    change Stands _ _ _ (producer.client.publication? topic) _
    cases hfound : producer.client.publication? topic with
    | none =>
      rw [hfound] at hstands
      cases hstands with
      | absent => exact .absent
    | some publication =>
      rw [hfound] at hstands
      cases hstands with
      | present hplace htracked hwaits =>
        exact .present (hupdates.opened topic _ hplace)
          (htracked.removeReader (hunused publication hfound)) hwaits

/-- A client takes up a topic where a reader of it stands, unless it has the topic already. -/
theorem Shows.add_spec (hshows : producer.Shows topic stored history standing)
    (hcoherent : producer.store.Coherent) (handle : Handle)
    (hopen : producer.store.peek? topic = some handle.log)
    (htracked : stored.log.Tracked handle.reader false cursor) :
    ((producer.client.publication? topic).isSome ∧ ∃ fault,
        producer.client.add producer.store handle =
          (.error fault, producer.client, producer.store)) ∨
      ∃ client store later, producer.client.add producer.store handle = (.ok (), client, store) ∧
        standing = none ∧
        producer.Turns topic later history (some ⟨cursor.offset, none⟩)
          { producer with client, store } ∧ later.log.firstOffset = stored.log.firstOffset := by
  obtain ⟨reader, hreader, -⟩ := hcoherent.reader?_eq hopen hshows.current htracked.found
  obtain ⟨log, hlog, hname, -, hcurrent⟩ := hcoherent.current_of_peek? hopen
  obtain rfl := Except.ok.inj (hcurrent.symm.trans hshows.current)
  have hstands := hshows.stands
  unfold Client.add
  simp only [hreader, hname, Store.isAlive_of_peek? hopen, Bool.not_true, Bool.false_eq_true,
    if_false]
  cases hpublication : producer.client.publication? topic with
  | some old => exact Or.inl ⟨rfl, _, rfl⟩
  | none =>
    rw [hpublication] at hstands
    cases hstands with
    | absent =>
      let heard := (log.addListener (.replicator producer.client.name)).2
      let fresh : Publication := { topic, handle, listener := log.nextListener }
      have hlisten : producer.store.Updates topic ⟨heard, producer.store.volume.directory topic⟩
          (producer.store.setLog handle.log heard) :=
        hcoherent.updates_setLog hopen hshows.current rfl
      have hheard : heard.Tracked handle.reader false cursor := htracked.of_readers_eq rfl rfl rfl
      simp only [Store.addListener, hlog, Option.isSome_none, Bool.false_eq_true, if_false]
      have hnone : producer.client.publication? fresh.topic = none := hpublication
      obtain ⟨htouches, hpresent⟩ := Client.insert_spec hnone rfl
      have hstands : Stands (producer.store.setLog handle.log heard) topic heard (some fresh)
          (some ⟨cursor.offset, none⟩) :=
        .present (hlisten.opened topic _ hopen) hheard (by simp [fresh])
      refine Or.inr ⟨_, _, ⟨heard, producer.store.volume.directory topic⟩, rfl, trivial,
        ⟨hlisten.congr rfl rfl rfl, ⟨(hlisten.congr rfl rfl rfl).current,
          hshows.keeps.of_log_eq rfl rfl rfl, hshows.numbered, ?_⟩, htouches⟩, rfl⟩
      exact hpresent ▸ hstands.carry (.refl heard) fun other hother => hother

/-- A new reader of a topic, which is opened unless it is open. -/
theorem Shows.newReader_spec (hshows : producer.Shows topic stored history standing)
    (hcoherent : producer.store.Coherent) (hshort : topic.utf8ByteSize ≤ maxNameLength)
    (name : String) (offset : Nat) :
    (∃ fault store, producer.store.get topic = (.error fault, store) ∧
        producer.Turns topic stored history standing { producer with store }) ∨
      ∃ number opened, producer.store.get topic = (.ok number, opened) ∧
        ((∃ fault store, opened.addReader number name offset = (.error fault, store) ∧
            producer.Turns topic stored history standing { producer with store }) ∨
          ∃ id log cursor store, opened.addReader number name offset = (.ok ⟨number, id⟩, store) ∧
            producer.Turns topic { stored with log } history standing { producer with store } ∧
            store.peek? topic = some number ∧ log.firstOffset = stored.log.firstOffset ∧
            log.Tracked id false cursor ∧ cursor.offset = offset) := by
  rcases hcoherent.get_spec hshows.current with
    ⟨-, fault, hget⟩ | ⟨number, opened, hget, hopen, hupdates, -⟩
  · exact Or.inl ⟨fault, _, hget, (hshows.turns_self hcoherent).congr rfl rfl rfl⟩
  · have hstart : producer.Turns topic stored history standing { producer with store := opened } :=
      hshows.turns hupdates hshows.keeps hshows.numbered (.refl _) (.refl _ _) rfl
    refine Or.inr ⟨number, opened, hget, ?_⟩
    rcases hstart.shows.addReader_spec hupdates.coherent hshort hopen name offset with
      ⟨fault, after, -, hadd, hturns⟩ | ⟨id, log, cursor, after, hadd, hturns, hfirst, htracked,
        hoffset, -⟩
    · exact Or.inl ⟨fault, after, hadd, hstart.trans hturns⟩
    · exact Or.inr ⟨id, log, cursor, after, hadd, hstart.trans hturns,
        hturns.updates.opened topic number hopen, hfirst, htracked, hoffset⟩

/-- How a topic can be taken up at an offset: it stands there, with nothing that waits, or stays as
    it is. -/
def Joins (producer : Producer) (topic : String) (stored : StoredLog) (history : Bytes)
    (standing : Option Standing) (offset : Nat) (after : Producer) : Prop :=
  ∃ later place, producer.Turns topic later history place after ∧
    later.log.firstOffset = stored.log.firstOffset ∧
    (place = standing ∨ standing = none ∧ place = some ⟨offset, none⟩ ∧
      stored.log.firstOffset ≤ offset)

/-- A topic stands where the reader stood that the client took up. -/
theorem Turns.joins {log : TopicLog} {middle after : Producer} {later : StoredLog}
    (hreader : producer.Turns topic { stored with log } history standing middle)
    (hadded : middle.Turns topic later history (some ⟨cursor.offset, none⟩) after)
    (hnone : standing = none) {id : Nat} (htracked : log.Tracked id false cursor)
    (hfirst : log.firstOffset = stored.log.firstOffset)
    (hsame : later.log.firstOffset = log.firstOffset) :
    producer.Joins topic stored history standing cursor.offset after := by
  refine ⟨later, _, hreader.trans hadded, hsame.trans hfirst, Or.inr ⟨hnone, rfl, ?_⟩⟩
  rw [← hfirst]
  exact (htracked.follows rfl).firstOffset_le hreader.shows.keeps.ordered

/-- A client takes up an open topic with a new reader, unless it has the topic already or the log has
    not the offset. -/
theorem Shows.enrol_spec (hshows : producer.Shows topic stored history standing)
    (hcoherent : producer.store.Coherent) (hshort : topic.utf8ByteSize ≤ maxNameLength)
    (hopen : producer.store.peek? topic = some number) (offset : Nat) :
    (∃ fault client store later,
        producer.client.register producer.store number offset = (.error fault, client, store) ∧
        producer.Turns topic later history standing { producer with client, store } ∧
        later.log.firstOffset = stored.log.firstOffset) ∨
      ∃ handle client store later,
        producer.client.register producer.store number offset = (.ok handle, client, store) ∧
        standing = none ∧
        producer.Turns topic later history (some ⟨offset, none⟩) { producer with client, store } ∧
        later.log.firstOffset = stored.log.firstOffset ∧ stored.log.firstOffset ≤ offset := by
  unfold Client.register
  rcases hshows.addReader_spec hcoherent hshort hopen producer.client.name offset with
    ⟨fault, store, -, hadd, hturns⟩ | ⟨id, log, cursor, store, hadd, hturns, hfirst, htracked, rfl,
      hunused⟩
  · simp only [hadd]
    exact Or.inl ⟨fault, producer.client, store, stored, rfl, hturns, rfl⟩
  · have hafter := hturns.updates.coherent
    have hopened := hturns.updates.opened topic number hopen
    simp only [hadd]
    rcases hturns.shows.add_spec hafter ⟨number, id⟩ hopened htracked with
      ⟨-, fault, hfailed⟩ | ⟨client, joined, later, hdone, hnone, hjoins, hsame⟩
    · obtain ⟨later, hremoved, hsame⟩ := hturns.shows.removeReader_spec hafter hopened id hunused
      simp only [hfailed]
      exact Or.inl ⟨fault, _, _, later, rfl, hturns.trans hremoved, hsame.trans hfirst⟩
    · simp only [hdone]
      refine Or.inr ⟨_, client, joined, later, rfl, hnone, hturns.trans hjoins, hsame.trans hfirst, ?_⟩
      rw [← hfirst]
      exact (htracked.follows rfl).firstOffset_le hturns.shows.keeps.ordered

theorem Shows.register_spec (hshows : producer.Shows topic stored history standing)
    (hcoherent : producer.store.Coherent) (hshort : topic.utf8ByteSize ≤ maxNameLength)
    (offset : Nat) :
    producer.Joins topic stored history standing offset (producer.register topic offset).2 := by
  unfold register
  rcases hcoherent.get_spec hshows.current with
    ⟨-, fault, hget⟩ | ⟨number, opened, hget, hopen, hupdates, -⟩
  · simp only [hget]
    exact ⟨stored, standing, (hshows.turns_self hcoherent).congr rfl rfl rfl, rfl, Or.inl rfl⟩
  · have hstart : producer.Turns topic stored history standing { producer with store := opened } :=
      hshows.turns hupdates hshows.keeps hshows.numbered (.refl _) (.refl _ _) rfl
    simp only [hget]
    rcases hstart.shows.enrol_spec hupdates.coherent hshort hopen offset with
      ⟨fault, client, store, later, hregister, hturns, hsame⟩ | ⟨handle, client, store, later,
        hregister, hnone, hturns, hsame, hfirst⟩
    · simp only [hregister]
      exact ⟨later, standing, hstart.trans hturns, hsame, Or.inl rfl⟩
    · simp only [hregister]
      exact ⟨later, _, hstart.trans hturns, hsame, Or.inr ⟨hnone, rfl, hfirst⟩⟩

/-- Replicates a topic from `offset` on with a reader of any name, which stays registered if the
    client does not take up the topic. -/
def enlist (producer : Producer) (topic name : String) (offset : Nat) : Producer :=
  match producer.store.get topic with
  | (.error _, store) => { producer with store }
  | (.ok number, store) =>
    match store.addReader number name offset with
    | (.error _, store) => { producer with store }
    | (.ok handle, store) =>
      let (_, client, store) := producer.client.add store handle
      { producer with client, store }

theorem Shows.enlist_spec (hshows : producer.Shows topic stored history standing)
    (hcoherent : producer.store.Coherent) (hshort : topic.utf8ByteSize ≤ maxNameLength)
    (name : String) (offset : Nat) :
    producer.Joins topic stored history standing offset (producer.enlist topic name offset) := by
  unfold enlist
  rcases hshows.newReader_spec hcoherent hshort name offset with
    ⟨fault, store, hget, hturns⟩ | ⟨number, opened, hget, ⟨fault, store, hadd, hturns⟩ |
      ⟨id, log, cursor, store, hadd, hturns, hopen, hfirst, htracked, rfl⟩⟩
  · simp only [hget]
    exact ⟨stored, standing, hturns, rfl, Or.inl rfl⟩
  · simp only [hget, hadd]
    exact ⟨stored, standing, hturns, rfl, Or.inl rfl⟩
  · simp only [hget, hadd]
    rcases hturns.shows.add_spec hturns.updates.coherent ⟨number, id⟩ hopen htracked with
      ⟨-, fault, hfailed⟩ | ⟨client, store, later, hdone, hnone, hjoins, hsame⟩
    · simp only [hfailed]
      exact ⟨{ stored with log }, standing, hturns, hfirst, Or.inl rfl⟩
    · simp only [hdone]
      exact hturns.joins hjoins hnone htracked hfirst hsame

/-- Who keeps a log alive does not matter to what it holds. -/
theorem Turns.of_kept {after : Producer} (hturns : producer.Turns topic stored history standing after)
    (kept : List Nat) :
    producer.Turns topic stored history standing
      { after with store := { after.store with kept } } where
  updates := hturns.updates.congr rfl rfl rfl
  shows := ⟨hturns.shows.current, hturns.shows.keeps, hturns.shows.numbered,
    hturns.shows.stands.carry (.refl _) fun _ hopen => hopen⟩
  touches := hturns.touches

/-- A topic that is given up has no place any more. -/
theorem Shows.release_spec (hshows : producer.Shows topic stored history standing)
    (hcoherent : producer.store.Coherent) {publication : Publication}
    (hfound : producer.client.publication? topic = some publication) :
    ∃ later, producer.Turns topic later history none { producer with
        client := { producer.client with
          publications := producer.client.publications.filter fun old => old.topic ≠ topic }
        store := Client.release publication producer.store } ∧
      later.log.firstOffset = stored.log.firstOffset := by
  have hstands := hshows.stands
  rw [hfound] at hstands
  cases hstands with
  | present hopen _ _ =>
    obtain ⟨log, hlog, -, -, hcurrent⟩ := hcoherent.current_of_peek? hopen
    obtain rfl := Except.ok.inj (hcurrent.symm.trans hshows.current)
    let left : Client := { producer.client with
      publications := producer.client.publications.filter fun old => old.topic ≠ topic }
    have hnone : left.publication? topic = none := Client.publication?_filter.trans (if_pos rfl)
    let unheard := log.removeListener publication.listener
    have hdeaf : producer.store.Updates topic ⟨unheard, producer.store.volume.directory topic⟩
        (producer.store.setLog publication.handle.log unheard) :=
      hcoherent.updates_setLog hopen hshows.current rfl
    have hleft : producer.Turns topic ⟨unheard, producer.store.volume.directory topic⟩ history none
        { producer with
          client := left, store := producer.store.setLog publication.handle.log unheard } :=
      ⟨hdeaf, ⟨hdeaf.current, hshows.keeps.of_log_eq rfl rfl rfl, hshows.numbered,
        hnone ▸ .absent⟩, Client.touches_filter producer.client topic⟩
    obtain ⟨later, hremoved, hsame⟩ := hleft.shows.removeReader_spec hdeaf.coherent
      (hdeaf.opened topic _ hopen) publication.handle.reader fun found hfound =>
        absurd (hnone.symm.trans hfound) (by simp)
    refine ⟨later, ?_, hsame⟩
    simp only [Client.release, Store.removeListener, hlog]
    exact (hleft.trans hremoved).of_kept _

theorem sinks_register (producer : Producer) (topic : String) (offset : Nat) :
    (producer.register topic offset).2.sinks = producer.sinks := by
  unfold register
  split <;> rfl

theorem sinks_enlist (producer : Producer) (topic name : String) (offset : Nat) :
    (producer.enlist topic name offset).sinks = producer.sinks := by
  unfold enlist
  split
  · rfl
  · dsimp only
    split <;> rfl

end Producer

end ReplicatedLog
