import ReplicatedLog.Proofs.Log.Append
import ReplicatedLog.Proofs.Log.Retention
import ReplicatedLog.Proofs.Log.Scanning

namespace ReplicatedLog

/-- One use of an open log. -/
inductive LogAction
  | append (data : Bytes) (rollSize : Nat)
  | appendAt (offset : Nat) (data : Bytes) (rollSize : Nat)
  | roll
  | resumeAt (offset : Nat)
  | cleanup (retain : Nat)
  | cleanupAll (retain external : Nat)
  | addReader (name : String) (offset : Nat)
  | removeReader (id : Nat)
  | hasMore (id : Nat)
  | nextRegion (id limit : Nat)
  | consume (id length : Nat)
  | seek (id offset : Nat)

/-- A new reader stands where its cursor was placed, behind the other readers. -/
theorem TopicLog.addReader_eq_ok {log : TopicLog} {name : String} {offset : Nat}
    {added : Nat × TopicLog} (hadd : log.addReader name offset = .ok added) :
    ∃ cursor, Cursor.place log.segments log.maxOffset offset = .ok cursor ∧
      added = (log.nextReader, { log with
        readers := log.readers ++ [⟨log.nextReader, name, cursor⟩]
        nextReader := log.nextReader + 1 }) := by
  unfold addReader at hadd
  cases hplace : Cursor.place log.segments log.maxOffset offset with
  | error fault => simp [hplace, bind, Except.bind] at hadd
  | ok cursor =>
    simp only [hplace, bind, Except.bind, Except.ok.injEq] at hadd
    exact ⟨cursor, rfl, hadd.symm⟩

namespace StoredLog

/-- The log after an action, whether the action succeeded or not. -/
def perform (stored : StoredLog) (now : Instant) : LogAction → StoredLog
  | .append data rollSize => (stored.append data rollSize now).2
  | .appendAt offset data rollSize => (stored.appendAt offset data rollSize now).2
  | .roll => (stored.roll now).2
  | .resumeAt offset => (stored.resumeAt offset now).2
  | .cleanup retain => (stored.cleanup retain now).2
  | .cleanupAll retain external => (stored.cleanupAll retain external now).2
  | .addReader name offset =>
    match stored.log.addReader name offset with
    | .error _ => stored
    | .ok (_, log) => { stored with log }
  | .removeReader id => { stored with log := stored.log.removeReader id }
  | .hasMore id => (stored.onReader id fun topic dir cursor => cursor.hasMore topic dir).2
  | .nextRegion id limit =>
    (stored.onReader id fun topic dir cursor => cursor.nextRegion topic dir limit).2
  | .consume id length =>
    (stored.onReader id fun topic dir cursor => cursor.consume topic dir length).2
  | .seek id offset =>
    (stored.onReader id fun _ _ cursor =>
      match Cursor.place stored.log.segments stored.log.maxOffset offset with
      | .error fault => (.error fault, cursor)
      | .ok moved => (.ok (), moved)).2

/-- No offset that comes up in an action needs more than 64 bits. -/
def Fits (stored : StoredLog) : LogAction → Prop
  | .append data _ => stored.log.maxOffset + data.length ≤ Decimal.maxValue
  | .appendAt offset data _ =>
    offset = stored.log.maxOffset → offset + data.length ≤ Decimal.maxValue
  | .resumeAt offset => offset ≤ Decimal.maxValue
  | _ => True

/-- One log comes from another by actions, each at a time of its own. -/
inductive Reaches (start : StoredLog) : StoredLog → Prop
  | refl : Reaches start start
  | step {stored : StoredLog} (hreaches : Reaches start stored) (now : Instant)
      (action : LogAction) (hnow : now.InCalendar) (hfits : stored.Fits action) :
      Reaches start (stored.perform now action)

variable {stored : StoredLog} {parts : List Part}

/-- The bytes that an action adds to a log. -/
def adds (stored : StoredLog) : LogAction → Bytes
  | .append data _ => data
  | .appendAt offset data _ => if offset = stored.log.maxOffset then data else []
  | _ => []

/-- What the calls on a reader make of its cursor. -/
inductive Turns (stored : StoredLog) : LogAction → Nat → Cursor → Cursor → Prop
  | hasMore (id : Nat) (cursor : Cursor) :
      stored.Turns (.hasMore id) id cursor (cursor.hasMore stored.log.topic stored.dir).2
  | nextRegion (id limit : Nat) (cursor : Cursor) :
      stored.Turns (.nextRegion id limit) id cursor
        (cursor.nextRegion stored.log.topic stored.dir limit).2
  | consume (id length : Nat) (cursor : Cursor) :
      stored.Turns (.consume id length) id cursor
        (cursor.consume stored.log.topic stored.dir length).2
  | refused (id offset : Nat) (cursor : Cursor) :
      stored.Turns (.seek id offset) id cursor cursor
  | placed (id : Nat) {offset : Nat} (cursor : Cursor) {moved : Cursor}
      (hplace : Cursor.place stored.log.segments stored.log.maxOffset offset = .ok moved) :
      stored.Turns (.seek id offset) id cursor moved

theorem Turns.adds_eq_nil {action : LogAction} {id : Nat} {cursor moved : Cursor}
    (hturns : stored.Turns action id cursor moved) : stored.adds action = [] := by
  cases hturns <;> rfl

/-- What an action makes of a log that lies in its directory. -/
inductive Becomes (stored : StoredLog) (parts : List Part) : LogAction → StoredLog → Prop
  | same {action : LogAction} (hnone : stored.adds action = []) :
      Becomes stored parts action stored
  | grown {action : LogAction} {after : StoredLog} {grown : List Part} (hafter : after.Laid grown)
      (hcontents : Part.contents grown = Part.contents parts ++ stored.adds action)
      (hgrown : stored.log.Grown (stored.adds action).length after.log) :
      Becomes stored parts action after
  | rolled {after : StoredLog} {wide : List Part} (hafter : after.Laid wide)
      (hcontents : Part.contents wide = Part.contents parts)
      (hwide : stored.log.Widened after.log) : Becomes stored parts .roll after
  | resumed {offset : Nat} {part : Part} {dir : Directory}
      (hafter : Laid ⟨stored.log.startedAt part.segment, dir⟩ [part])
      (hoffset : part.segment.offset = offset) (hlt : stored.log.maxOffset < offset) :
      Becomes stored parts (.resumeAt offset) ⟨stored.log.startedAt part.segment, dir⟩
  | cleaned {retain : Nat} {after : StoredLog} (hkept : stored.Kept parts stored.log.gate after)
      (hlast : after.log.segments = [] → stored.log.segments = []) :
      Becomes stored parts (.cleanup retain) after
  | cleanedAll {retain external : Nat} {after : StoredLog}
      (hkept : stored.Kept parts (min stored.log.gate external) after) :
      Becomes stored parts (.cleanupAll retain external) after
  | registered {name : String} {offset : Nat} {added : Nat × TopicLog}
      (hadd : stored.log.addReader name offset = .ok added) :
      Becomes stored parts (.addReader name offset) { stored with log := added.2 }
  | released (id : Nat) :
      Becomes stored parts (.removeReader id) { stored with log := stored.log.removeReader id }
  | turned {action : LogAction} {id : Nat} {reader : Reader} {moved : Cursor}
      (hreader : stored.log.reader? id = some reader)
      (hturns : stored.Turns action id reader.cursor moved) :
      Becomes stored parts action { stored with log := stored.log.setCursor id moved }

/-- Work on the cursor of a reader gives the log another cursor. -/
theorem onReader_of_reader? {id : Nat} {reader : Reader}
    (hreader : stored.log.reader? id = some reader) {α : Type}
    (work : String → Directory → Cursor → Except Fault α × Cursor) :
    stored.onReader id work = ((work stored.log.topic stored.dir reader.cursor).1, { stored with
      log := stored.log.setCursor id (work stored.log.topic stored.dir reader.cursor).2 }) := by
  unfold onReader
  rw [hreader]

/-- An action whose call turns the cursor of a reader does nothing without this reader. -/
theorem becomes_onReader {α : Type} {action : LogAction} (hnone : stored.adds action = [])
    (id : Nat) {work : String → Directory → Cursor → Except Fault α × Cursor}
    (hwork : ∀ cursor,
      stored.Turns action id cursor (work stored.log.topic stored.dir cursor).2) :
    stored.Becomes parts action (stored.onReader id work).2 := by
  cases hreader : stored.log.reader? id with
  | none =>
    have hsame : (stored.onReader id work).2 = stored := by
      simp only [onReader, hreader]
    rw [hsame]
    exact .same hnone
  | some reader =>
    rw [onReader_of_reader? hreader]
    exact .turned hreader (hwork reader.cursor)

/-- All that an action can do to a log. -/
theorem Laid.perform_becomes (hlaid : stored.Laid parts) {now : Instant} (hnow : now.InCalendar)
    (action : LogAction) (hfits : stored.Fits action) :
    stored.Becomes parts action (stored.perform now action) := by
  cases action with
  | append data rollSize =>
    obtain ⟨after, grown, happend, hafter, hcontents, hgrown, -⟩ :=
      hlaid.append_spec data rollSize hnow hfits
    have hperform : stored.perform now (.append data rollSize) = after := congrArg Prod.snd happend
    rw [hperform]
    exact .grown hafter hcontents hgrown
  | appendAt offset data rollSize =>
    by_cases hoffset : offset = stored.log.maxOffset
    · have hadds : stored.adds (.appendAt offset data rollSize) = data := if_pos hoffset
      obtain ⟨after, grown, happend, hafter, hcontents, hmore, -⟩ :=
        hlaid.appendAt_maxOffset data rollSize hnow (hoffset ▸ hfits hoffset)
      have hperform : stored.perform now (.appendAt offset data rollSize) = after := by
        rw [hoffset]
        exact congrArg Prod.snd happend
      rw [hperform]
      rcases hmore with ⟨hnone, rfl⟩ | hgrown
      · exact .same (hadds.trans hnone)
      · exact .grown hafter (hadds.symm ▸ hcontents) (hadds.symm ▸ hgrown)
    · have hperform : stored.perform now (.appendAt offset data rollSize) = stored :=
        congrArg Prod.snd (appendAt_of_ne hoffset data rollSize now)
      rw [hperform]
      exact .same (if_neg hoffset)
  | roll =>
    obtain ⟨front, last, after, hroll, hafter, -, hcontents, hwide, -⟩ := hlaid.roll_spec hnow
    have hperform : stored.perform now .roll = after := congrArg Prod.snd hroll
    rw [hperform]
    exact .rolled hafter hcontents hwide
  | resumeAt offset =>
    by_cases hskip : stored.log.segments ≠ [] ∨ offset ≤ stored.log.maxOffset
    · have hperform : stored.perform now (.resumeAt offset) = stored :=
        congrArg Prod.snd (if_pos hskip)
      rw [hperform]
      exact .same rfl
    · obtain ⟨hempty, hlt⟩ := not_or.mp hskip
      obtain rfl : parts = [] := List.map_eq_nil_iff.mp (hlaid.segments ▸ not_not.mp hempty)
      obtain ⟨part, dir, hresume, hafter, hoffset, -⟩ :=
        hlaid.resumeAt_of_lt hnow hfits (not_le.mp hlt)
      have hperform : stored.perform now (.resumeAt offset) =
          ⟨stored.log.startedAt part.segment, dir⟩ := congrArg Prod.snd hresume
      rw [hperform]
      exact .resumed hafter hoffset (not_le.mp hlt)
  | cleanup retain =>
    refine .cleaned (hlaid.cleanup_spec retain now) fun hnil => ?_
    by_contra hsegments
    exact segments_cleanup_ne_nil hsegments retain now hnil
  | cleanupAll retain external => exact .cleanedAll (hlaid.cleanupAll_spec retain external now)
  | addReader name offset =>
    cases hadd : stored.log.addReader name offset with
    | error fault =>
      have hperform : stored.perform now (.addReader name offset) = stored := by
        simp only [perform, hadd]
      rw [hperform]
      exact .same rfl
    | ok added =>
      have hperform : stored.perform now (.addReader name offset) = { stored with log := added.2 } :=
        by simp only [perform, hadd]
      rw [hperform]
      exact .registered hadd
  | removeReader id => exact .released id
  | hasMore id => exact becomes_onReader rfl id (.hasMore id)
  | nextRegion id limit => exact becomes_onReader rfl id (.nextRegion id limit)
  | consume id length => exact becomes_onReader rfl id (.consume id length)
  | seek id offset =>
    refine becomes_onReader rfl id fun cursor => ?_
    cases hplace : Cursor.place stored.log.segments stored.log.maxOffset offset with
    | error fault => exact .refused id offset cursor
    | ok moved => exact .placed id cursor hplace

theorem Kept.exists_laid {gate : Nat} {after : StoredLog} (hkept : stored.Kept parts gate after) :
    ∃ kept, after.Laid kept ∧ stored.log.maxOffset ≤ after.log.maxOffset := by
  obtain ⟨kept, -, hlaid, -, -⟩ := hkept.laid
  exact ⟨kept, hlaid, hkept.cleaned.maxOffset_eq.ge⟩

theorem Becomes.exists_laid {action : LogAction} {after : StoredLog}
    (hbecomes : stored.Becomes parts action after) (hlaid : stored.Laid parts) :
    ∃ others, after.Laid others ∧ stored.log.maxOffset ≤ after.log.maxOffset := by
  cases hbecomes with
  | same => exact ⟨parts, hlaid, le_rfl⟩
  | grown hafter _ hgrown =>
    refine ⟨_, hafter, ?_⟩
    rw [hgrown.maxOffset_eq]
    exact Nat.le_add_right _ _
  | rolled hafter _ hwide => exact ⟨_, hafter, hwide.maxOffset_eq.ge⟩
  | resumed hafter hoffset hlt => exact ⟨_, hafter, hlt.le.trans hoffset.ge⟩
  | cleaned hkept => exact hkept.exists_laid
  | cleanedAll hkept => exact hkept.exists_laid
  | registered hadd =>
    obtain ⟨cursor, -, rfl⟩ := TopicLog.addReader_eq_ok hadd
    exact ⟨parts, hlaid.of_log_eq rfl rfl rfl, le_rfl⟩
  | released id => exact ⟨parts, hlaid.of_log_eq rfl rfl rfl, le_rfl⟩
  | turned => exact ⟨parts, hlaid.of_log_eq rfl rfl rfl, le_rfl⟩

/-- After every action the log lies in its directory, and its end did not move back. -/
theorem Laid.perform_spec (hlaid : stored.Laid parts) {now : Instant} (hnow : now.InCalendar)
    (action : LogAction) (hfits : stored.Fits action) :
    ∃ others, (stored.perform now action).Laid others ∧
      stored.log.maxOffset ≤ (stored.perform now action).log.maxOffset :=
  (hlaid.perform_becomes hnow action hfits).exists_laid hlaid

theorem Reaches.laid {start after : StoredLog} (hreaches : Reaches start after)
    (hstart : start.Laid parts) :
    ∃ others, after.Laid others ∧ start.log.maxOffset ≤ after.log.maxOffset := by
  induction hreaches with
  | refl => exact ⟨parts, hstart, le_rfl⟩
  | step _ now action hnow hfits ih =>
    obtain ⟨others, hothers, hle⟩ := ih
    obtain ⟨later, hlater, hmore⟩ := hothers.perform_spec hnow action hfits
    exact ⟨later, hlater, hle.trans hmore⟩

/-- A log opened on a contiguous directory stays consistent with it whatever is done with the log,
    and its end never moves back. -/
theorem Reaches.consistent_of_open {topic : String} {dir : Directory}
    {opened before after : StoredLog} (hdir : dir.Sound)
    (hopen : ofDirectory topic dir = .ok opened) (hcontiguous : opened.Contiguous)
    (hbounded : opened.Bounded) (hbefore : Reaches opened before)
    (hafter : Reaches before after) :
    after.Consistent ∧ before.log.maxOffset ≤ after.log.maxOffset := by
  obtain ⟨parts, hparts⟩ := Laid.of_open hdir hopen hcontiguous hbounded
  obtain ⟨middle, hmiddle, -⟩ := hbefore.laid hparts
  obtain ⟨last, hlast, hle⟩ := hafter.laid hmiddle
  exact ⟨hlast.consistent, hle⟩

/-- In a directory that is made for it, a log that rolled within one second is consistent. -/
theorem consistent_after_roll :
    let opened : StoredLog := ⟨{ topic := "t" }, {}⟩
    let rolled := (opened.perform ⟨0, 0⟩ (.append [1, 2] 1)).perform ⟨0, 0⟩ (.append [3] 1)
    rolled.Consistent ∧ opened.log.maxOffset ≤ rolled.log.maxOffset := by
  intro opened rolled
  have hdir : opened.dir.Sound :=
    ⟨Or.inl rfl, List.Pairwise.nil, fun _ _ _ => List.not_mem_nil, List.Pairwise.nil,
      fun _ hentry => absurd hentry List.not_mem_nil⟩
  have hcontiguous : opened.Contiguous := ⟨List.Pairwise.nil, List.IsChain.nil⟩
  have hrolled : Reaches opened rolled :=
    .step (.step .refl ⟨0, 0⟩ (.append [1, 2] 1) (by decide) (by unfold Fits; decide)) ⟨0, 0⟩
      (.append [3] 1) (by decide) (by unfold Fits; decide +kernel)
  have hopen : ofDirectory "t" opened.dir = .ok opened := rfl
  exact Reaches.consistent_of_open hdir hopen hcontiguous (bounded_of_nil rfl) .refl hrolled

end StoredLog

end ReplicatedLog
