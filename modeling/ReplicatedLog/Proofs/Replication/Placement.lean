import ReplicatedLog.Proofs.Replication.Locality

namespace ReplicatedLog

/-- The topics that stay when one is given back are as they were. -/
theorem Client.publication?_of_remove {client : Client} {store : Store} {handle : Handle}
    {topic : String} {publication : Publication}
    (hfound : (client.remove store handle).2.1.publication? topic = some publication) :
    client.publication? topic = some publication := by
  unfold remove at hfound
  split at hfound
  · exact hfound
  · rw [publication?_filter] at hfound
    split at hfound
    · cases hfound
    · exact hfound

namespace Producer

variable {producer middle after : Producer} {topic : String} {moved : Option Handle}
  {publication : Publication}

/-- What stays of the topics of a client, and how new ones begin. One reader at most moved. -/
structure Carries (producer : Producer) (moved : Option Handle) (after : Producer) : Prop where
  store : producer.store.MovesOnly moved after.store
  heirs : ∀ topic publication, producer.client.publication? topic = some publication →
    ∃ later, after.client.publication? topic = some later ∧ publication.Heir later
  fresh : ∀ topic later, producer.client.publication? topic = none →
    after.client.publication? topic = some later →
      later.halted = false ∧ ∃ offset, after.store.post? later.handle = some (topic, offset)

theorem Concerns.carries (hconcerns : producer.Concerns topic moved after) :
    producer.Carries moved after where
  store := hconcerns.store
  heirs other publication hfound := by
    by_cases hother : other = topic
    · exact hother ▸ hconcerns.client.heir publication (hother ▸ hfound)
    · exact ⟨publication, (hconcerns.client.others other hother).trans hfound, .refl publication⟩
  fresh other later hnone hlater := by
    have hstill : after.client.publication? other = none := by
      by_cases hother : other = topic
      · exact hother ▸ hconcerns.client.none (hother ▸ hnone)
      · exact (hconcerns.client.others other hother).trans hnone
    rw [hstill] at hlater
    cases hlater

/-- To lose the connection leaves every topic as it was, but with nothing that waits. -/
theorem Carries.disconnected (hcarries : producer.Carries moved after) :
    producer.Carries moved { after with client := after.client.disconnected } where
  store := hcarries.store
  heirs topic publication hfound := by
    obtain ⟨later, hlater, hheir⟩ := hcarries.heirs topic publication hfound
    refine ⟨_, Client.publication?_disconnected.trans (congrArg _ hlater), ?_⟩
    exact hheir.trans (.of_idle rfl id rfl)
  fresh topic last hnone hlast := by
    rw [Client.publication?_disconnected] at hlast
    obtain ⟨later, hlater, rfl⟩ := Option.map_eq_some_iff.mp hlast
    exact hcarries.fresh topic later hnone hlater

/-- At most new topics joined those of a client, which stay as they are. -/
structure Enlarges (producer : Producer) (moved : Option Handle) (after : Producer) : Prop where
  store : producer.store.MovesOnly moved after.store
  kept : ∀ topic publication, producer.client.publication? topic = some publication →
    after.client.publication? topic = some publication
  fresh : ∀ topic later, producer.client.publication? topic = none →
    after.client.publication? topic = some later →
      later.halted = false ∧ ∃ offset, after.store.post? later.handle = some (topic, offset)

namespace Enlarges

theorem carries (henlarges : producer.Enlarges moved after) : producer.Carries moved after where
  store := henlarges.store
  heirs topic publication hfound :=
    ⟨publication, henlarges.kept topic publication hfound, .refl publication⟩
  fresh := henlarges.fresh

theorem of_publications (hstore : producer.store.MovesOnly moved after.store)
    (hpublications : after.client.publications = producer.client.publications) :
    producer.Enlarges moved after where
  store := hstore
  kept topic publication hfound :=
    (Client.publication?_congr hpublications topic).trans hfound
  fresh topic later hnone hlater := by
    rw [Client.publication?_congr hpublications, hnone] at hlater
    cases hlater

theorem trans (hfirst : producer.Enlarges moved middle) (hsecond : middle.Enlarges moved after) :
    producer.Enlarges moved after where
  store := hfirst.store.trans hsecond.store
  kept topic publication hfound := hsecond.kept topic publication (hfirst.kept topic publication hfound)
  fresh topic later hnone hlater := by
    cases hbetween : middle.client.publication? topic with
    | none => exact hsecond.fresh topic later hbetween hlater
    | some publication =>
      obtain rfl := Option.some.inj ((hsecond.kept topic publication hbetween).symm.trans hlater)
      obtain ⟨hreading, offset, hstands⟩ := hfirst.fresh topic publication hnone hbetween
      exact ⟨hreading, hsecond.store.topic _ topic offset hstands⟩

end Enlarges

/-- The queue, the timers and what was counted do not matter. -/
theorem carries_of_client (hidentified : producer.store.Identified) {client : Client}
    (hpublications : client.publications = producer.client.publications) :
    producer.Carries moved { producer with client } := by
  have henlarges : producer.Enlarges moved { producer with client } :=
    .of_publications (.of_logs_eq hidentified rfl) hpublications
  exact henlarges.carries

theorem change_enlarges {α : Type} {work : Store → α × Store}
    (hwork : producer.store.MovesOnly moved (work producer.store).2) :
    producer.Enlarges moved (producer.change work).2 :=
  .of_publications hwork (Client.publications_notice _ _).1

/-- A topic that a client takes up is that of the reader. -/
theorem add_enlarges (hidentified : producer.store.Identified) (handle : Handle) :
    producer.Enlarges moved { producer with
      client := (producer.client.add producer.store handle).2.1
      store := (producer.client.add producer.store handle).2.2 } := by
  have hself : producer.Enlarges moved producer :=
    .of_publications (.of_logs_eq hidentified rfl) rfl
  unfold Client.add
  split
  · exact hself
  next log reader hreader =>
    dsimp only
    split
    · exact hself
    · split
      · exact hself
      next hregistered =>
        have hlistens : producer.store.MovesOnly moved
            (producer.store.addListener handle.log (.replicator producer.client.name)).2 :=
          Store.movesOnly_addListener hidentified handle.log _
        rcases hadded : producer.store.addListener handle.log (.replicator producer.client.name) with
          ⟨listener, store⟩
        rw [hadded] at hlistens
        have hkept : producer.store.MovesOnly moved { store with kept := handle.log :: store.kept } :=
          hlistens.congr rfl
        let fresh : Publication := { topic := log.topic, handle, listener }
        have hnone : producer.client.publication? fresh.topic = none := by
          simpa [Option.isSome_iff_ne_none] using hregistered
        obtain ⟨htouches, hfresh⟩ := Client.insert_spec hnone rfl
        refine ⟨hkept, fun topic publication hfound => ?_, fun topic later hnew hlater => ?_⟩
        · have hother : topic ≠ fresh.topic := fun hsame => by simp [hsame, hnone] at hfound
          exact (htouches.others topic hother).trans hfound
        · by_cases htopic : topic = fresh.topic
          · subst htopic
            obtain rfl := Option.some.inj (hfresh.symm.trans hlater)
            exact ⟨rfl, hkept.topic handle _ _ (Store.post?_of_reader? hreader)⟩
          · have hold := (htouches.others topic htopic).symm.trans hlater
            rw [hnew] at hold
            cases hold

theorem get_enlarges (hidentified : producer.store.Identified) {outcome : Except Fault Nat}
    {opened : Store} (hget : producer.store.get topic = (outcome, opened)) :
    producer.Enlarges moved { producer with store := opened } := by
  have hmoves : producer.store.MovesOnly moved (producer.store.get topic).2 :=
    Store.movesOnly_get hidentified topic
  rw [hget] at hmoves
  exact .of_publications hmoves rfl

theorem newReader_enlarges (hidentified : producer.store.Identified) {opened store : Store}
    {number : Nat} {outcome : Except Fault Handle}
    (hget : producer.store.get topic = (.ok number, opened)) {name : String} {offset : Nat}
    (hreader : opened.addReader number name offset = (outcome, store)) :
    producer.Enlarges moved { producer with store } := by
  have hopened : producer.Enlarges moved { producer with store := opened } :=
    get_enlarges hidentified hget
  have hmoves := hopened.store.trans
    (Store.movesOnly_addReader hopened.store.identified number name offset)
  rw [hreader] at hmoves
  exact .of_publications hmoves rfl

theorem register_enlarges (hidentified : producer.store.Identified) (topic : String) (offset : Nat) :
    producer.Enlarges moved (producer.register topic offset).2 := by
  unfold register
  rcases hget : producer.store.get topic with ⟨fault | number, opened⟩
  · exact get_enlarges hidentified hget
  · simp only [Client.register]
    rcases hreader : opened.addReader number producer.client.name offset with ⟨fault | handle, store⟩
    · exact newReader_enlarges hidentified hget hreader
    · have hstart : producer.Enlarges moved { producer with store } :=
        newReader_enlarges hidentified hget hreader
      have hadd := hstart.trans (add_enlarges hstart.store.identified handle)
      dsimp only at hadd ⊢
      rcases hadded : producer.client.add store handle with ⟨fault | _, client, later⟩
      · rw [hadded] at hadd
        exact hadd.trans (.of_publications
          (Store.movesOnly_removeReader hadd.store.identified number handle) rfl)
      · rw [hadded] at hadd
        exact hadd

theorem enlist_enlarges (hidentified : producer.store.Identified) (topic name : String)
    (offset : Nat) : producer.Enlarges moved (producer.enlist topic name offset) := by
  unfold enlist
  rcases hget : producer.store.get topic with ⟨fault | number, opened⟩
  · exact get_enlarges hidentified hget
  · dsimp only
    rcases hreader : opened.addReader number name offset with ⟨fault | handle, store⟩
    · exact newReader_enlarges hidentified hget hreader
    · have hstart : producer.Enlarges moved { producer with store } :=
        newReader_enlarges hidentified hget hreader
      exact hstart.trans (add_enlarges hstart.store.identified handle)

/-- Each topic of a client is that of the log that it reads, and a topic that was given up waits for
    nothing. -/
structure Orderly (producer : Producer) : Prop where
  identified : producer.store.Identified
  placed : ∀ topic publication, producer.client.publication? topic = some publication →
    ∃ offset, producer.store.post? publication.handle = some (topic, offset)
  idle : ∀ topic publication, producer.client.publication? topic = some publication →
    publication.halted = true → publication.outstanding = none

namespace Orderly

theorem carry (horderly : producer.Orderly) (hcarries : producer.Carries moved after) :
    after.Orderly where
  identified := hcarries.store.identified
  placed topic later hlater := by
    cases hfound : producer.client.publication? topic with
    | none => exact (hcarries.fresh topic later hfound hlater).2
    | some publication =>
      obtain ⟨heir, hheir, hstays⟩ := hcarries.heirs topic publication hfound
      obtain rfl := Option.some.inj (hheir.symm.trans hlater)
      obtain ⟨offset, hstands⟩ := horderly.placed topic publication hfound
      rw [hstays.handle]
      exact hcarries.store.topic publication.handle topic offset hstands
  idle topic later hlater hhalted := by
    cases hfound : producer.client.publication? topic with
    | none =>
      rw [(hcarries.fresh topic later hfound hlater).1] at hhalted
      cases hhalted
    | some publication =>
      obtain ⟨heir, hheir, hstays⟩ := hcarries.heirs topic publication hfound
      obtain rfl := Option.some.inj (hheir.symm.trans hlater)
      exact hstays.idle (horderly.idle topic publication hfound) hhalted

/-- A topic can be given back, with its reader and its listener. -/
theorem remove (horderly : producer.Orderly) (handle : Handle) :
    Orderly { producer with
      client := (producer.client.remove producer.store handle).2.1
      store := (producer.client.remove producer.store handle).2.2 } := by
  have hstore : producer.store.MovesOnly none (producer.client.remove producer.store handle).2.2 := by
    unfold Client.remove
    split
    · exact .of_logs_eq horderly.identified rfl
    next removed _ =>
      have hheard : producer.store.MovesOnly none
          (producer.store.removeListener removed.handle.log removed.listener).2 :=
        Store.movesOnly_removeListener horderly.identified removed.handle.log removed.listener
      have hread := hheard.trans
        (Store.movesOnly_removeReader hheard.identified removed.handle.log removed.handle)
      exact hread.congr rfl
  refine ⟨hstore.identified, fun topic publication hfound => ?_, fun topic publication hfound => ?_⟩
  · obtain ⟨offset, hstands⟩ :=
      horderly.placed topic publication (Client.publication?_of_remove hfound)
    exact hstore.topic publication.handle topic offset hstands
  · exact horderly.idle topic publication (Client.publication?_of_remove hfound)

/-- Two topics do not share a log. -/
theorem log_ne (horderly : producer.Orderly) {other : String} {beside : Publication}
    (hfound : producer.client.publication? topic = some publication)
    (hbeside : producer.client.publication? other = some beside) (hother : other ≠ topic) :
    beside.handle.log ≠ publication.handle.log := by
  intro hsame
  obtain ⟨_, hstands⟩ := horderly.placed topic publication hfound
  obtain ⟨_, hbehind⟩ := horderly.placed other beside hbeside
  obtain ⟨log, hlog, rfl, -⟩ := Store.post?_eq_some_iff.mp hstands
  obtain ⟨same, hsamelog, rfl, -⟩ := Store.post?_eq_some_iff.mp hbehind
  rw [hsame, hlog] at hsamelog
  exact hother (congrArg TopicLog.topic (Option.some.inj hsamelog).symm)

/-- No reply moves the reader of a topic that was given up. -/
theorem moved?_ne (horderly : producer.Orderly)
    (hfound : producer.client.publication? topic = some publication)
    (hhalted : publication.halted = true) (other : String) :
    producer.moved? other ≠ some publication.handle := by
  intro hmoved
  obtain ⟨⟨waiting, length⟩, houtstanding, hsame⟩ := Option.map_eq_some_iff.mp hmoved
  obtain ⟨hother, hwaits⟩ := Client.outstanding?_eq_some houtstanding
  by_cases htopic : other = topic
  · subst htopic
    obtain rfl := Option.some.inj (hother.symm.trans hfound)
    rw [horderly.idle other waiting hfound hhalted] at hwaits
    cases hwaits
  · exact horderly.log_ne hfound hother htopic (congrArg Handle.log hsame)

end Orderly

/-- A step that concerns one topic leaves the others as they are, with their readers. -/
theorem Concerns.spares (hconcerns : producer.Concerns topic moved after)
    (horderly : producer.Orderly) {other : String} (hother : other ≠ topic) :
    after.client.publication? other = producer.client.publication? other ∧
      ∀ publication, producer.client.publication? other = some publication →
        after.store.reader? publication.handle = producer.store.reader? publication.handle :=
  ⟨hconcerns.client.others other hother, fun _ hbeside =>
    Store.reader?_congr (hconcerns.logs _ fun _ hfound =>
      horderly.log_ne hfound hbeside hother)⟩

end Producer

end ReplicatedLog
