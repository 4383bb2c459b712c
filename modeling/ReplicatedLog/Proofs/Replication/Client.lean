import Mathlib.Data.List.Basic
import ReplicatedLog.Replication.Producer

namespace ReplicatedLog

/-- The same replication, tried again at another time or given up. -/
structure Publication.Kin (publication other : Publication) : Prop where
  topic : other.topic = publication.topic
  handle : other.handle = publication.handle
  outstanding : other.outstanding = publication.outstanding
  halted : other.halted = false → publication.halted = false

theorem Publication.Kin.refl (publication : Publication) : publication.Kin publication :=
  ⟨rfl, rfl, rfl, id⟩

namespace Client

/-- Every publication is found under its topic. -/
def Distinct (client : Client) : Prop :=
  ∀ publication ∈ client.publications, client.publication? publication.topic = some publication

variable {client after : Client} {topic other : String} {publication : Publication}
  {change : Publication → Publication}

theorem mem_of_publication? (hfound : client.publication? topic = some publication) :
    publication ∈ client.publications ∧ publication.topic = topic :=
  ⟨List.mem_of_find?_eq_some hfound, by simpa using List.find?_some hfound⟩

theorem publication?_modify (hchange : ∀ publication, (change publication).topic = publication.topic) :
    (client.modify topic change).publication? other =
      (client.publication? other).map fun publication =>
        if publication.topic = topic then change publication else publication := by
  have hsame : (fun publication : Publication => decide (publication.topic = other)) ∘
      (fun publication => if publication.topic = topic then change publication else publication) =
      fun publication => decide (publication.topic = other) := by
    funext publication
    by_cases htopic : publication.topic = topic <;> simp [htopic, hchange]
  rw [publication?, modify, List.find?_map, hsame]
  rfl

theorem publication?_modify_self
    (hchange : ∀ publication, (change publication).topic = publication.topic)
    (hfound : client.publication? topic = some publication) :
    (client.modify topic change).publication? topic = some (change publication) := by
  rw [publication?_modify hchange, hfound, Option.map_some, if_pos (mem_of_publication? hfound).2]

theorem publication?_modify_of_ne
    (hchange : ∀ publication, (change publication).topic = publication.topic)
    (hne : other ≠ topic) :
    (client.modify topic change).publication? other = client.publication? other := by
  rw [publication?_modify hchange]
  cases hfound : client.publication? other with
  | none => rfl
  | some publication =>
    rw [Option.map_some, if_neg ((mem_of_publication? hfound).2 ▸ hne)]

theorem modify_of_none (hnone : client.publication? topic = none) :
    client.modify topic change = client := by
  have hsame : ∀ publication ∈ client.publications,
      (if publication.topic = topic then change publication else publication) = publication := by
    intro publication hmem
    have habsent := List.find?_eq_none.mp hnone publication hmem
    rw [if_neg (by simpa using habsent)]
  unfold modify
  rw [List.map_congr_left hsame, List.map_id']

theorem Distinct.modify (hdistinct : client.Distinct)
    (hchange : ∀ publication, (change publication).topic = publication.topic) :
    (client.modify topic change).Distinct := by
  intro publication hmem
  obtain ⟨old, hold, rfl⟩ := List.mem_map.mp hmem
  have hfound := hdistinct old hold
  have htopic : (if old.topic = topic then change old else old).topic = old.topic := by
    by_cases hname : old.topic = topic <;> simp [hname, hchange]
  rw [htopic, publication?_modify hchange, hfound, Option.map_some]

/-- Only the publication of one topic changed. -/
structure Touches (client : Client) (topic : String) (after : Client) : Prop where
  others : ∀ other, other ≠ topic → after.publication? other = client.publication? other
  distinct : client.Distinct → after.Distinct
  settings : after.settings = client.settings

theorem Touches.refl (client : Client) (topic : String) : client.Touches topic client :=
  ⟨fun _ _ => rfl, id, rfl⟩

theorem Touches.trans {middle : Client} (hfirst : client.Touches topic middle)
    (hsecond : middle.Touches topic after) : client.Touches topic after where
  others other hne := (hsecond.others other hne).trans (hfirst.others other hne)
  distinct hdistinct := hsecond.distinct (hfirst.distinct hdistinct)
  settings := hsecond.settings.trans hfirst.settings

theorem touches_modify (hchange : ∀ publication, (change publication).topic = publication.topic) :
    client.Touches topic (client.modify topic change) where
  others _ hne := publication?_modify_of_ne hchange hne
  distinct hdistinct := hdistinct.modify hchange
  settings := rfl

theorem publication?_congr {last : Client} (hpublications : last.publications = after.publications)
    (topic : String) : last.publication? topic = after.publication? topic := by
  rw [publication?, publication?, hpublications]

/-- Only the publications matter, not the queue, the timers or what was counted. -/
theorem Touches.congr (htouches : client.Touches topic after) {last : Client}
    (hpublications : last.publications = after.publications)
    (hsettings : last.settings = after.settings) : client.Touches topic last := by
  have hsame := publication?_congr hpublications
  refine ⟨?_, ?_, hsettings.trans htouches.settings⟩
  · exact fun other hne => (hsame other).trans (htouches.others other hne)
  · intro hdistinct publication hmem
    rw [hsame]
    exact htouches.distinct hdistinct publication (hpublications ▸ hmem)

/-- The publication of one topic changed, but in no way that concerns its place. -/
structure Adjusts (client : Client) (topic : String) (after : Client) : Prop
    extends client.Touches topic after where
  kin : ∀ publication, client.publication? topic = some publication →
    ∃ later, after.publication? topic = some later ∧ publication.Kin later

theorem Adjusts.refl (client : Client) (topic : String) : client.Adjusts topic client :=
  ⟨.refl client topic, fun publication hfound => ⟨publication, hfound, .refl publication⟩⟩

theorem adjusts_modify (hchange : ∀ publication : Publication, publication.Kin (change publication)) :
    client.Adjusts topic (client.modify topic change) where
  toTouches := touches_modify fun publication => (hchange publication).topic
  kin publication hfound :=
    ⟨_, publication?_modify_self (fun publication => (hchange publication).topic) hfound,
      hchange publication⟩

theorem Adjusts.congr (hadjusts : client.Adjusts topic after) {last : Client}
    (hpublications : last.publications = after.publications)
    (hsettings : last.settings = after.settings) : client.Adjusts topic last where
  toTouches := hadjusts.toTouches.congr hpublications hsettings
  kin publication hfound := by
    rw [publication?_congr hpublications]
    exact hadjusts.kin publication hfound

theorem scheduleRetry_adjusts (client : Client) (topic : String) (moment : Moment) :
    client.Adjusts topic (client.scheduleRetry topic moment) := by
  unfold scheduleRetry
  split
  · exact .refl client topic
  · split
    · have hadjusts (failures due : Nat) : client.Adjusts topic (client.modify topic fun publication =>
          { publication with failures, retryAt := some due }) :=
        adjusts_modify fun _ => ⟨rfl, rfl, rfl, id⟩
      exact (hadjusts _ _).congr rfl rfl
    · exact adjusts_modify fun _ => ⟨rfl, rfl, rfl, fun hreading => by cases hreading⟩

theorem cursorFailed_adjusts (client : Client) (topic : String) (fault : Fault) (moment : Moment) :
    client.Adjusts topic (client.cursorFailed topic fault moment) := by
  unfold cursorFailed
  split
  · exact adjusts_modify fun _ => ⟨rfl, rfl, rfl, fun hreading => by cases hreading⟩
  · exact scheduleRetry_adjusts client topic moment

theorem publications_wake (client : Client) (topic : String) :
    (client.wake topic).publications = client.publications ∧
      (client.wake topic).settings = client.settings := by
  unfold wake
  split <;> exact ⟨rfl, rfl⟩

theorem publications_foldl_wake (due : List (Nat × String)) (client : Client) :
    (due.foldl (fun client timer => client.wake timer.2) client).publications =
        client.publications ∧
      (due.foldl (fun client timer => client.wake timer.2) client).settings = client.settings := by
  induction due generalizing client with
  | nil => exact ⟨rfl, rfl⟩
  | cons timer rest ih =>
    obtain ⟨hpublications, hsettings⟩ := publications_wake client timer.2
    obtain ⟨hothers, hsame⟩ := ih (client.wake timer.2)
    exact ⟨hothers.trans hpublications, hsame.trans hsettings⟩

theorem publications_fireThose (client : Client) (ready : Nat × String → Bool) :
    (client.fireThose ready).publications = client.publications ∧
      (client.fireThose ready).settings = client.settings :=
  publications_foldl_wake _ { client with timers := (client.timers.partition ready).2 }

theorem publications_take {client : Client} {taken : String × Client}
    (htake : client.take = some taken) :
    taken.2.publications = client.publications ∧ taken.2.settings = client.settings := by
  unfold take at htake
  split at htake
  · cases htake
  · obtain rfl := Option.some.inj htake
    exact ⟨rfl, rfl⟩

theorem publications_notice (client : Client) (events : List Event) :
    (client.notice events).publications = client.publications ∧
      (client.notice events).settings = client.settings := by
  unfold notice
  induction events generalizing client with
  | nil => exact ⟨rfl, rfl⟩
  | cons event rest ih =>
    rw [List.foldl_cons]
    obtain ⟨hpublications, hsettings⟩ := ih _
    rw [hpublications, hsettings]
    split
    · split
      · exact publications_wake client _
      · exact ⟨rfl, rfl⟩
    · exact ⟨rfl, rfl⟩

theorem find?_insertPublication {publications : List Publication}
    (hnone : ∀ old ∈ publications, old.topic ≠ publication.topic) :
    (insertPublication publication publications).find?
        (fun publication => publication.topic = other) =
      if publication.topic = other then some publication
      else publications.find? fun publication => publication.topic = other := by
  induction publications with
  | nil => by_cases htopic : publication.topic = other <;> simp [insertPublication, htopic]
  | cons first rest ih =>
    have hrest := ih fun old hold => hnone old (List.mem_cons_of_mem _ hold)
    have hfirst := hnone first List.mem_cons_self
    unfold insertPublication
    split
    · by_cases htopic : publication.topic = other <;> simp [htopic]
    · rw [List.find?_cons, hrest, List.find?_cons]
      by_cases htopic : publication.topic = other
      · have hother : first.topic ≠ other := htopic ▸ hfirst
        simp [htopic, hother]
      · by_cases hname : first.topic = other <;> simp [htopic, hname]

theorem mem_insertPublication {publications : List Publication} {old : Publication} :
    old ∈ insertPublication publication publications ↔ old = publication ∨ old ∈ publications := by
  induction publications with
  | nil => simp [insertPublication]
  | cons first rest ih =>
    unfold insertPublication
    split
    · rw [List.mem_cons]
    · rw [List.mem_cons, ih, List.mem_cons]
      tauto

/-- A new publication joins the others. -/
theorem publication?_insert (hnone : client.publication? publication.topic = none) :
    ({ client with publications := insertPublication publication client.publications } :
      Client).publication? other =
      if publication.topic = other then some publication else client.publication? other := by
  refine find?_insertPublication fun old hold htopic => ?_
  have habsent := List.find?_eq_none.mp hnone old hold
  simp [htopic] at habsent

theorem Distinct.insert (hdistinct : client.Distinct)
    (hnone : client.publication? publication.topic = none) :
    Distinct { client with publications := insertPublication publication client.publications } := by
  intro old hmem
  rw [publication?_insert hnone]
  rcases mem_insertPublication.mp hmem with rfl | hold
  · exact if_pos rfl
  · have hfound := hdistinct old hold
    rw [if_neg, hfound]
    intro htopic
    rw [htopic, hfound] at hnone
    cases hnone

theorem publication?_filter :
    ({ client with publications := client.publications.filter fun old => old.topic ≠ topic } :
      Client).publication? other =
      if other = topic then none else client.publication? other := by
  by_cases hother : other = topic
  · rw [if_pos hother, publication?, List.find?_eq_none]
    intro old hmem
    have hne := (List.mem_filter.mp hmem).2
    simp only [ne_eq, decide_not, Bool.not_eq_true', decide_eq_false_iff_not] at hne
    simpa [hother] using hne
  · have hsame : (fun old : Publication =>
        decide (decide (old.topic ≠ topic) = true ∧ decide (old.topic = other) = true)) =
        fun old => decide (old.topic = other) := by
      funext old
      by_cases hname : old.topic = other <;> simp [hname, hother]
    rw [if_neg hother, publication?, List.find?_filter, hsame]
    rfl

theorem Distinct.filter (hdistinct : client.Distinct) :
    Distinct { client with
      publications := client.publications.filter fun old => old.topic ≠ topic } := by
  intro old hmem
  obtain ⟨hold, hne⟩ := List.mem_filter.mp hmem
  rw [publication?_filter, if_neg (by simpa using hne)]
  exact hdistinct old hold

theorem publication?_disconnected :
    client.disconnected.publication? topic = (client.publication? topic).map fun publication =>
      { publication with outstanding := none, retryAt := none } := by
  rw [publication?, disconnected, List.find?_map]
  rfl

theorem Distinct.disconnected (hdistinct : client.Distinct) : client.disconnected.Distinct := by
  intro publication hmem
  obtain ⟨old, hold, rfl⟩ := List.mem_map.mp hmem
  rw [publication?_disconnected, hdistinct old hold]
  rfl

end Client

end ReplicatedLog
