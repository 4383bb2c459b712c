import ReplicatedLog.Proofs.Replication.Placement

namespace ReplicatedLog

namespace Producer

variable {producer after : Producer} {topic name : String} {packet : Packet} {moment : Moment}

/-- A reply that is taken up is one for the topic that it names. -/
theorem handleReply_name (hname : Utf8.decode? packet.topic = some topic)
    (hreply : producer.handleReply packet moment = (.ok name, after)) : name = topic := by
  have hmap : ∀ outcome : Except Fault Unit, (outcome.map fun _ => topic) = .ok name → name = topic := by
    rintro (fault | _) hok
    · cases hok
    · exact (Except.ok.inj hok).symm
  unfold handleReply at hreply
  rw [hname] at hreply
  have hfirst := congrArg Prod.fst hreply
  cases packet with
  | publish => cases hfirst
  | ack => exact hmap _ hfirst
  | reset => exact hmap _ hfirst
  | failure => exact (Except.ok.inj hfirst).symm

end Producer

namespace ConnectionLoop

/-- A loop that can come about, whatever the volume holds. The client gives topics back, and others work
    with the logs as they like, who move one reader at a time. -/
inductive Comes : ConnectionLoop → Prop
  | start (volume : Volume) (settings : SyncSettings) (sinks : List Sink) (clock : Nat) :
      Comes (start volume settings sinks clock)
  | perform {loop : ConnectionLoop} (hcomes : Comes loop) (action : Action) :
      Comes (loop.perform action)
  | remove {loop : ConnectionLoop} (hcomes : Comes loop) (handle : Handle) :
      Comes { loop with producer := { loop.producer with
        client := (loop.producer.client.remove loop.producer.store handle).2.1
        store := (loop.producer.client.remove loop.producer.store handle).2.2 } }
  | others {loop : ConnectionLoop} (hcomes : Comes loop) {moved : Option Handle} {store : Store}
      (hmoves : loop.producer.store.MovesOnly moved store) :
      Comes { loop with producer := { loop.producer with store } }

/-- The reader that an action may move. -/
def moved? (loop : ConnectionLoop) : Action → Option Handle
  | .reply packet _ => (Utf8.decode? packet.topic).bind loop.producer.moved?
  | _ => none

/-- The packet that an action sends. -/
def sent? (loop : ConnectionLoop) : Action → Option Packet
  | .finishRead (.ok data) random =>
    match loop.round with
    | some ⟨_, some (topic, region)⟩ =>
      match loop.producer.finishRead topic ⟨loop.clock, random⟩ region (.ok data) with
      | (.ok (some _), _) => some (.publish region.offset (Utf8.encode topic) data)
      | _ => none
    | _ => none
  | _ => none

/-- A look at one topic: its next bytes are searched for, and read to be published. -/
def look (outcome : Except IoFault Bytes) (random : Nat → Float) : List Action :=
  [.visit (random 0), .finishRead outcome (random 1)]

/-- The loop after actions in turn. -/
def performAll (loop : ConnectionLoop) (actions : List Action) : ConnectionLoop :=
  actions.foldl perform loop

/-- The packets that actions send in turn. -/
def sent : ConnectionLoop → List Action → List Packet
  | _, [] => []
  | loop, action :: rest => (loop.sent? action).toList ++ sent (loop.perform action) rest

/-- The bytes that are read are to be published for a topic. -/
def Reads (loop : ConnectionLoop) (topic : String) : Prop :=
  ∃ visits region, loop.round = some ⟨visits, some (topic, region)⟩

/-- A loop of an orderly producer, which reads for no topic that was given up. -/
structure Orderly (loop : ConnectionLoop) : Prop where
  producer : loop.producer.Orderly
  reading : ∀ topic publication, loop.Reads topic →
    loop.producer.client.publication? topic = some publication → publication.halted = false

/-- What a client does in one go for a topic. It notes a wake, or lets timers of the topic fire. Or it
    takes the topic out of its queue, takes up a reply or comes to the topic among its visits, and then
    publishes the next bytes. -/
inductive Turn (loop : ConnectionLoop) (topic : String) : List Action → Prop
  | wake : Turn loop topic [.wake topic]
  | fire {ready : Nat × String → Bool}
      (hready : ∀ timer ∈ loop.producer.client.timers, ready timer = true → timer.2 = topic) :
      Turn loop topic [.fire ready]
  | take {rest : List String} (hround : loop.round = some {})
      (hqueue : loop.producer.client.queue = topic :: rest) (outcome : Except IoFault Bytes)
      (random : Nat → Float) : Turn loop topic (.take :: look outcome random)
  | reply {packet : Packet} (hround : loop.round = some {}) (hreply : packet.IsReply)
      (hname : Utf8.decode? packet.topic = some topic) (chance : Float)
      (outcome : Except IoFault Bytes) (random : Nat → Float) :
      Turn loop topic (.reply packet chance :: look outcome random)
  | visit {rest : List String} (hround : loop.round = some ⟨topic :: rest, none⟩)
      (outcome : Except IoFault Bytes) (random : Nat → Float) :
      Turn loop topic (look outcome random)
  | finishRead {rest : List String} {region : Region}
      (hround : loop.round = some ⟨rest, some (topic, region)⟩) (outcome : Except IoFault Bytes)
      (random : Float) : Turn loop topic [.finishRead outcome random]

variable {loop after : ConnectionLoop} {topic : String} {action : Action} {actions : List Action}
  {packet : Packet} {publication : Publication} {moved : Option Handle}
  {outcome : Except IoFault Bytes} {chance : Float} {random : Nat → Float}

/-- Nothing is sent but what was read. -/
theorem sent?_eq_some (hsent : loop.sent? action = some packet) :
    ∃ topic, loop.Reads topic ∧ packet.topic = Utf8.encode topic := by
  unfold sent? at hsent
  split at hsent
  · split at hsent
    next hround =>
      split at hsent
      · obtain rfl := Option.some.inj hsent
        exact ⟨_, ⟨_, _, hround⟩, rfl⟩
      · cases hsent
    · cases hsent
  · cases hsent

namespace Orderly

theorem start (volume : Volume) (settings : SyncSettings) (sinks : List Sink) (clock : Nat) :
    (ConnectionLoop.start volume settings sinks clock).Orderly where
  producer := ⟨nofun, nofun, nofun⟩
  reading _ _ _ hfound := by cases hfound

/-- A topic for which bytes are read goes on as it is. -/
theorem enlarge (horderly : loop.Orderly) {producer : Producer}
    (henlarges : loop.producer.Enlarges moved producer) :
    loop.producer.Carries moved producer ∧ Orderly { loop with producer } := by
  refine ⟨henlarges.carries, horderly.producer.carry henlarges.carries, ?_⟩
  intro topic later hreads hlater
  cases hfound : loop.producer.client.publication? topic with
  | none => exact (henlarges.fresh topic later hfound hlater).1
  | some publication =>
    obtain rfl := Option.some.inj ((henlarges.kept topic publication hfound).symm.trans hlater)
    exact horderly.reading topic publication hreads hfound

theorem change (horderly : loop.Orderly) {α : Type} (work : Store → α × Store)
    (hwork : loop.producer.store.MovesOnly moved (work loop.producer.store).2) :
    loop.producer.Carries moved (loop.producer.change work).2 ∧
      Orderly { loop with producer := (loop.producer.change work).2 } :=
  horderly.enlarge (Producer.change_enlarges hwork)

theorem stay (horderly : loop.Orderly) :
    loop.producer.Carries moved loop.producer ∧ loop.Orderly :=
  ⟨Producer.carries_of_client horderly.producer.identified rfl, horderly⟩

theorem setClient (horderly : loop.Orderly) {client : Client}
    (hpublications : client.publications = loop.producer.client.publications) :
    loop.producer.Carries moved (loop.setClient client).producer ∧ (loop.setClient client).Orderly :=
  horderly.enlarge (.of_publications (.of_logs_eq horderly.producer.identified rfl) hpublications)

/-- A loop that reads nothing. -/
theorem rest (horderly : loop.Orderly) (hcarries : loop.producer.Carries moved after.producer)
    {visits : List String} (hround : after.round = some { visits }) :
    loop.producer.Carries moved after.producer ∧ after.Orderly := by
  refine ⟨hcarries, horderly.producer.carry hcarries, ?_⟩
  rintro topic later ⟨rest, region, hreads⟩
  rw [hround] at hreads
  cases hreads

theorem lose (horderly : loop.Orderly) {producer : Producer}
    (hcarries : loop.producer.Carries moved producer) :
    loop.producer.Carries moved (ConnectionLoop.lose { loop with producer }).producer ∧
      (ConnectionLoop.lose { loop with producer }).Orderly := by
  refine ⟨hcarries.disconnected, horderly.producer.carry hcarries.disconnected, ?_⟩
  rintro topic later ⟨rest, region, hreads⟩
  cases hreads

theorem connect (horderly : loop.Orderly) :
    loop.producer.Carries moved loop.connect.producer ∧ loop.connect.Orderly := by
  unfold ConnectionLoop.connect
  split
  · exact horderly.stay
  · exact horderly.rest (Producer.carries_of_client horderly.producer.identified rfl) rfl

/-- Bytes are read only for a topic that was not given up. -/
theorem visit (horderly : loop.Orderly) (random : Float) :
    loop.producer.Carries moved (loop.visit random).producer ∧ (loop.visit random).Orderly := by
  unfold ConnectionLoop.visit
  split
  next topic visits _ =>
    have hconcerns : loop.producer.Concerns topic moved
        (loop.producer.nextPublish topic ⟨loop.clock, random⟩).2 :=
      Producer.nextPublish_concerns horderly.producer.identified topic _
    refine ⟨hconcerns.carries, horderly.producer.carry hconcerns.carries, ?_⟩
    rintro other later ⟨rest, region, hreads⟩ hlater
    rcases hnext : loop.producer.nextPublish topic ⟨loop.clock, random⟩ with ⟨_ | found, producer⟩
    · simp [hnext] at hreads
    -- A region is found only for a topic that was not given up, and finding it does not change that.
    · simp only [hnext, Option.map_some, Option.some.injEq, Round.mk.injEq,
        Prod.mk.injEq] at hreads hlater
      obtain ⟨-, rfl, -⟩ := hreads
      exact Producer.nextPublish_reading hnext hlater
  · exact horderly.stay

theorem finishRead (horderly : loop.Orderly) (outcome : Except IoFault Bytes) (random : Float) :
    loop.producer.Carries moved (loop.finishRead outcome random).producer ∧
      (loop.finishRead outcome random).Orderly := by
  unfold ConnectionLoop.finishRead
  split
  next topic region _ =>
    have hconcerns : loop.producer.Concerns topic moved _ :=
      Producer.finishRead_concerns horderly.producer.identified topic ⟨loop.clock, random⟩ region
        outcome
    split
    next heq =>
      rw [heq] at hconcerns
      exact horderly.lose hconcerns.carries
    next heq =>
      rw [heq] at hconcerns
      exact horderly.rest hconcerns.carries rfl
  · exact horderly.stay

theorem take (horderly : loop.Orderly) :
    loop.producer.Carries moved loop.take.producer ∧ loop.take.Orderly := by
  unfold ConnectionLoop.take
  split
  next htake =>
    exact horderly.rest (Producer.carries_of_client horderly.producer.identified
      (Client.publications_take htake).1) rfl
  · exact horderly.stay

/-- A reply moves the reader of the topic that waits for it, and no other. -/
theorem reply (horderly : loop.Orderly) (packet : Packet) (random : Float) :
    loop.producer.Carries (loop.moved? (.reply packet random)) (loop.reply packet random).producer ∧
      (loop.reply packet random).Orderly := by
  have hidentified := horderly.producer.identified
  unfold ConnectionLoop.reply
  split
  · have hreply : loop.producer.Carries (loop.moved? (.reply packet random))
        (loop.producer.handleReply packet ⟨loop.clock, random⟩).2 := by
      cases hname : Utf8.decode? packet.topic with
      | none =>
        simp only [Producer.handleReply, hname]
        exact Producer.carries_of_client hidentified rfl
      | some topic =>
        have hconcerns := Producer.handleReply_concerns hidentified hname ⟨loop.clock, random⟩
        rw [moved?, hname]
        exact hconcerns.carries
    split
    next heq =>
      rw [heq] at hreply
      exact horderly.lose hreply
    next heq =>
      rw [heq] at hreply
      exact horderly.rest hreply rfl
  · exact horderly.stay

/-- Every action leaves each topic with its log, and moves the reader of one topic at most. -/
theorem perform_spec (horderly : loop.Orderly) (action : Action) :
    loop.producer.Carries (loop.moved? action) (loop.perform action).producer ∧
      (loop.perform action).Orderly := by
  have hidentified := horderly.producer.identified
  cases action with
  | append topic data rollSize now =>
    exact horderly.change (·.append topic data rollSize now)
      (Store.movesOnly_append hidentified topic data rollSize now)
  | cleanup topic retain now =>
    exact horderly.change (·.onTopic topic (·.cleanup retain now))
      (Store.movesOnly_onTopic hidentified topic fun stored => stored.roster_cleanup retain now)
  | cleanupAll topic retain external now =>
    exact horderly.change (·.onTopic topic (·.cleanupAll retain external now))
      (Store.movesOnly_onTopic hidentified topic fun stored =>
        stored.roster_cleanupAll retain external now)
  | register topic offset =>
    exact horderly.enlarge (Producer.register_enlarges hidentified topic offset)
  | enlist topic name offset =>
    exact horderly.enlarge (Producer.enlist_enlarges hidentified topic name offset)
  | wake topic => exact horderly.setClient (loop.producer.client.publications_wake topic).1
  | wait duration => exact ⟨horderly.stay.1, horderly.producer, horderly.reading⟩
  | fire ready => exact horderly.setClient (loop.producer.client.publications_fireThose ready).1
  | connect => exact horderly.connect
  | disconnect => exact horderly.lose (Producer.carries_of_client hidentified rfl)
  | visit random => exact horderly.visit random
  | finishRead outcome random => exact horderly.finishRead outcome random
  | take => exact horderly.take
  | reply packet random => exact horderly.reply packet random

end Orderly

theorem Comes.orderly (hcomes : Comes loop) : loop.Orderly := by
  induction hcomes with
  | start volume settings sinks clock => exact .start volume settings sinks clock
  | perform _ action ih => exact (ih.perform_spec action).2
  | @remove loop _ handle ih =>
    refine ⟨ih.producer.remove handle, fun topic publication hreads hfound => ?_⟩
    exact ih.reading topic publication hreads (Client.publication?_of_remove hfound)
  | @others loop _ moved store hmoves ih =>
    have henlarges : loop.producer.Enlarges moved { loop.producer with store } :=
      .of_publications hmoves rfl
    exact (ih.enlarge henlarges).2

/-- Actions that concern one topic, and send nothing of any other. -/
def Serves (loop : ConnectionLoop) (topic : String) (moved : Option Handle) (actions : List Action) :
    Prop :=
  loop.producer.Concerns topic moved (loop.performAll actions).producer ∧
    ∀ packet ∈ loop.sent actions, packet.topic = Utf8.encode topic

theorem Serves.cons (hconcerns : loop.producer.Concerns topic moved (loop.perform action).producer)
    (hsilent : loop.sent? action = none) (hserves : (loop.perform action).Serves topic moved actions) :
    loop.Serves topic moved (action :: actions) := by
  refine ⟨hconcerns.trans hserves.1, ?_⟩
  rw [sent, hsilent]
  exact hserves.2

/-- What was read is published for its topic, unless the connection is lost over it. -/
theorem finishRead_serves (hidentified : loop.producer.store.Identified) {rest : List String}
    {reading : Option (String × Region)} (hround : loop.round = some ⟨rest, reading⟩)
    (hreading : ∀ name region, reading = some (name, region) → name = topic)
    (hlasts : (loop.perform (.finishRead outcome chance)).round ≠ none) :
    loop.Serves topic moved [.finishRead outcome chance] := by
  constructor
  · revert hlasts
    change (loop.perform (.finishRead outcome chance)).round ≠ none →
      loop.producer.Concerns topic moved (loop.perform (.finishRead outcome chance)).producer
    unfold perform ConnectionLoop.finishRead
    dsimp only
    split
    next visits name region hreads =>
      rw [hround] at hreads
      obtain ⟨rfl, rfl⟩ := Round.mk.inj (Option.some.inj hreads)
      obtain rfl := hreading name region rfl
      have hconcerns : loop.producer.Concerns name moved _ :=
        Producer.finishRead_concerns hidentified name ⟨loop.clock, chance⟩ region outcome
      split
      · exact fun hlasts => absurd rfl hlasts
      next heq =>
        rw [heq] at hconcerns
        exact fun _ => hconcerns
    · exact fun _ => Producer.concerns_refl hidentified topic
  · intro packet hsent
    simp only [sent, List.append_nil, Option.mem_toList] at hsent
    obtain ⟨name, ⟨visits, region, hreads⟩, hpacket⟩ := sent?_eq_some hsent
    rw [hround] at hreads
    obtain ⟨rfl, rfl⟩ := Round.mk.inj (Option.some.inj hreads)
    rw [hpacket, hreading name region rfl]

/-- A visit looks for the next bytes of its topic, which are then read and published. -/
theorem visit_serves (hidentified : loop.producer.store.Identified) {rest : List String}
    (hround : loop.round = some ⟨topic :: rest, none⟩)
    (hlasts : (loop.performAll (look outcome random)).round ≠ none) :
    loop.Serves topic moved (look outcome random) := by
  let looked := loop.producer.nextPublish topic ⟨loop.clock, random 0⟩
  have hvisit : loop.perform (.visit (random 0)) =
      { loop with producer := looked.2, round := some ⟨rest, looked.1.map (topic, ·)⟩ } := by
    simp only [perform, ConnectionLoop.visit, hround, looked]
  have hconcerns : loop.producer.Concerns topic moved
      (loop.perform (.visit (random 0))).producer := by
    rw [hvisit]
    exact Producer.nextPublish_concerns hidentified topic _
  refine .cons hconcerns rfl (finishRead_serves hconcerns.store.identified
    (congrArg ConnectionLoop.round hvisit) ?_ hlasts)
  intro name region hreads
  obtain ⟨found, -, hfound⟩ := Option.map_eq_some_iff.mp hreads
  exact (Prod.mk.inj hfound).1.symm

theorem take_serves (hidentified : loop.producer.store.Identified) (hround : loop.round = some {})
    {rest : List String} (hqueue : loop.producer.client.queue = topic :: rest)
    (hlasts : (loop.performAll (.take :: look outcome random)).round ≠ none) :
    loop.Serves topic moved (.take :: look outcome random) := by
  have htake : loop.perform .take = { loop.setClient { loop.producer.client with
      queue := rest, pending := loop.producer.client.pending.filter (· ≠ topic) } with
        round := some { visits := [topic] } } := by
    simp only [perform, ConnectionLoop.take, hround, Client.take, hqueue]
  have hconcerns : loop.producer.Concerns topic moved (loop.perform .take).producer := by
    rw [htake]
    exact Producer.concerns_of_client hidentified (Client.hands_of_publications rfl rfl)
  exact .cons hconcerns rfl (visit_serves hconcerns.store.identified
    (congrArg ConnectionLoop.round htake) hlasts)

/-- A reply is taken up for its topic, which is then visited. -/
theorem reply_serves (hidentified : loop.producer.store.Identified) (hround : loop.round = some {})
    (hname : Utf8.decode? packet.topic = some topic)
    (hlasts : (loop.performAll (.reply packet chance :: look outcome random)).round ≠ none) :
    loop.Serves topic (loop.producer.moved? topic)
      (.reply packet chance :: look outcome random) := by
  have hreply := Producer.handleReply_concerns hidentified hname ⟨loop.clock, chance⟩
  rcases hhandled : loop.producer.handleReply packet ⟨loop.clock, chance⟩ with ⟨fault | name, producer⟩
  · have hlost : loop.perform (.reply packet chance) = lose { loop with producer } := by
      simp only [perform, ConnectionLoop.reply, hround, hhandled]
    refine absurd ?_ hlasts
    rw [performAll, List.foldl_cons, hlost]
    rfl
  · obtain rfl := Producer.handleReply_name hname hhandled
    have htaken : loop.perform (.reply packet chance) =
        { loop with producer, round := some { visits := [name] } } := by
      simp only [perform, ConnectionLoop.reply, hround, hhandled]
    have hconcerns : loop.producer.Concerns name (loop.producer.moved? name)
        (loop.perform (.reply packet chance)).producer := by
      rw [htaken]
      rwa [hhandled] at hreply
    exact .cons hconcerns rfl (visit_serves hconcerns.store.identified
      (congrArg ConnectionLoop.round htaken) hlasts)

/-- A turn that does not lose the connection concerns its topic alone. -/
theorem Turn.serves (hturn : loop.Turn topic actions) (hidentified : loop.producer.store.Identified)
    (hlasts : loop.round ≠ none → (loop.performAll actions).round ≠ none) :
    loop.Serves topic (loop.producer.moved? topic) actions := by
  cases hturn with
  | wake =>
    obtain ⟨hpublications, hsettings⟩ := loop.producer.client.publications_wake topic
    exact ⟨Producer.concerns_of_client hidentified
      (Client.hands_of_publications hpublications hsettings), by simp [sent, sent?]⟩
  | @fire ready _ =>
    obtain ⟨hpublications, hsettings⟩ := loop.producer.client.publications_fireThose ready
    exact ⟨Producer.concerns_of_client hidentified
      (Client.hands_of_publications hpublications hsettings), by simp [sent, sent?]⟩
  | take hround hqueue outcome random =>
    exact take_serves hidentified hround hqueue (hlasts (by simp [hround]))
  | reply hround _ hname chance outcome random =>
    exact reply_serves hidentified hround hname (hlasts (by simp [hround]))
  | visit hround outcome random => exact visit_serves hidentified hround (hlasts (by simp [hround]))
  | finishRead hround outcome random =>
    refine finishRead_serves hidentified hround (fun name region hreads => ?_)
      (hlasts (by simp [hround]))
    exact (Prod.mk.inj (Option.some.inj hreads)).1.symm

theorem sinks_visit (loop : ConnectionLoop) (random : Float) :
    (loop.visit random).producer.sinks = loop.producer.sinks := by
  unfold ConnectionLoop.visit
  split
  · exact loop.producer.sinks_nextPublish _ _
  · rfl

theorem sinks_finishRead (loop : ConnectionLoop) (outcome : Except IoFault Bytes) (random : Float) :
    (loop.finishRead outcome random).producer.sinks = loop.producer.sinks := by
  unfold ConnectionLoop.finishRead
  split
  next topic region _ =>
    have hsinks := loop.producer.sinks_finishRead topic ⟨loop.clock, random⟩ region outcome
    split
    next heq => rwa [heq] at hsinks
    next heq => rwa [heq] at hsinks
  · rfl

/-- Such a reply is put aside. -/
theorem reply_of_idle (hname : Utf8.decode? packet.topic = some topic) (hreply : packet.IsReply)
    (hidle : loop.producer.client.outstanding? topic = none) (random : Float) :
    (loop.reply packet random).producer = loop.producer := by
  unfold ConnectionLoop.reply
  split
  · rw [Producer.handleReply_of_idle hname hidle hreply]
  · rfl

theorem Orderly.reply_of_idle_spec (horderly : loop.Orderly)
    (hname : Utf8.decode? packet.topic = some topic) (hreply : packet.IsReply)
    (hidle : loop.producer.client.outstanding? topic = none) (chance : Float)
    (outcome : Except IoFault Bytes) (random : Nat → Float) :
    (∀ handle post, loop.producer.store.post? handle = some post →
        (loop.performAll (.reply packet chance :: look outcome random)).producer.store.post? handle =
          some post) ∧
      (loop.performAll (.reply packet chance :: look outcome random)).producer.sinks =
        loop.producer.sinks := by
  have haside := reply_of_idle hname hreply hidle chance
  obtain ⟨-, hreplied⟩ := horderly.perform_spec (.reply packet chance)
  obtain ⟨hlooks, hvisited⟩ := hreplied.perform_spec (.visit (random 0))
  obtain ⟨hreads, -⟩ := hvisited.perform_spec (.finishRead outcome (random 1))
  constructor
  · intro handle post hstands
    rw [← haside] at hstands
    exact hreads.store.stays handle post nofun (hlooks.store.stays handle post nofun hstands)
  · rw [← haside, ← sinks_visit (loop.reply packet chance) (random 0)]
    exact sinks_finishRead _ outcome (random 1)

/-- Nothing is read for a topic that was given up. -/
theorem Orderly.topic_ne_of_sent (horderly : loop.Orderly)
    (hfound : loop.producer.client.publication? topic = some publication)
    (hhalted : publication.halted = true) (hsent : loop.sent? action = some packet) :
    packet.topic ≠ Utf8.encode topic := by
  obtain ⟨name, hreads, hpacket⟩ := sent?_eq_some hsent
  rw [hpacket]
  intro hsame
  obtain rfl := Utf8.encode_inj.mp hsame
  rw [horderly.reading name publication hreads hfound] at hhalted
  cases hhalted

/-- An action leaves a topic given up, and its reader where it was. -/
theorem Orderly.halted_step (horderly : loop.Orderly)
    (hfound : loop.producer.client.publication? topic = some publication)
    (hhalted : publication.halted = true) {post : String × Nat}
    (hstands : loop.producer.store.post? publication.handle = some post) (action : Action) :
    ∃ later, (loop.perform action).producer.client.publication? topic = some later ∧
      later.halted = true ∧ later.handle = publication.handle ∧
      (loop.perform action).producer.store.post? later.handle = some post := by
  obtain ⟨hcarries, -⟩ := horderly.perform_spec action
  obtain ⟨later, hlater, hheir⟩ := hcarries.heirs topic publication hfound
  have hmoved : loop.moved? action ≠ some publication.handle := by
    cases action with
    | reply packet random =>
      intro hmoved
      obtain ⟨other, -, hother⟩ := Option.bind_eq_some_iff.mp hmoved
      exact horderly.producer.moved?_ne hfound hhalted other hother
    | _ => nofun
  refine ⟨later, hlater, hheir.halted hhalted, hheir.handle, ?_⟩
  rw [hheir.handle]
  exact hcarries.store.stays publication.handle post hmoved hstands

/-- So do any number of actions, none of which publishes the topic. -/
theorem Orderly.halted_run (horderly : loop.Orderly)
    (hfound : loop.producer.client.publication? topic = some publication)
    (hhalted : publication.halted = true) {post : String × Nat}
    (hstands : loop.producer.store.post? publication.handle = some post) (actions : List Action) :
    (∃ later, (loop.performAll actions).producer.client.publication? topic = some later ∧
        later.halted = true ∧ later.handle = publication.handle ∧
        (loop.performAll actions).producer.store.post? later.handle = some post) ∧
      ∀ packet ∈ loop.sent actions, packet.topic ≠ Utf8.encode topic := by
  induction actions generalizing loop publication with
  | nil => exact ⟨⟨publication, hfound, hhalted, rfl, hstands⟩, nofun⟩
  | cons action rest ih =>
    obtain ⟨later, hlater, hstill, hhandle, hstays⟩ :=
      horderly.halted_step hfound hhalted hstands action
    obtain ⟨⟨last, hlast, hlasts, hsame, hpost⟩, hsilent⟩ :=
      ih (horderly.perform_spec action).2 hlater hstill hstays
    refine ⟨⟨last, hlast, hlasts, hsame.trans hhandle, hpost⟩, fun packet hsent => ?_⟩
    rcases List.mem_append.mp hsent with hnow | hthen
    · exact horderly.topic_ne_of_sent hfound hhalted (Option.mem_toList.mp hnow)
    · exact hsilent packet hthen

/-- A turn for one topic that does not lose the connection leaves every other topic as it is, with its
    reader, and publishes nothing of it. A reply for a topic for which nothing waits moves no reader, and
    tells the sinks nothing. A topic that was given up stays so, whatever happens: its reader does not
    move, and nothing of it is published. -/
theorem topics_isolated (hcomes : Comes loop) :
    (∀ topic actions, loop.Turn topic actions →
        (loop.round ≠ none → (loop.performAll actions).round ≠ none) →
      ∀ other, other ≠ topic →
        (loop.performAll actions).producer.client.publication? other =
            loop.producer.client.publication? other ∧
          (∀ publication, loop.producer.client.publication? other = some publication →
            (loop.performAll actions).producer.store.reader? publication.handle =
              loop.producer.store.reader? publication.handle) ∧
          ∀ packet ∈ loop.sent actions, packet.topic ≠ Utf8.encode other) ∧
      (∀ topic packet chance outcome random,
          Utf8.decode? packet.topic = some topic → packet.IsReply →
          loop.producer.client.outstanding? topic = none →
        (∀ handle post, loop.producer.store.post? handle = some post →
            (loop.performAll (.reply packet chance :: look outcome random)).producer.store.post? handle =
              some post) ∧
          (loop.performAll (.reply packet chance :: look outcome random)).producer.sinks =
            loop.producer.sinks) ∧
      ∀ topic publication actions, loop.producer.client.publication? topic = some publication →
          publication.halted = true →
        ∃ offset, loop.producer.store.post? publication.handle = some (topic, offset) ∧
          (∃ later, (loop.performAll actions).producer.client.publication? topic = some later ∧
            later.halted = true ∧ later.handle = publication.handle ∧
            (loop.performAll actions).producer.store.post? later.handle = some (topic, offset)) ∧
          ∀ packet ∈ loop.sent actions, packet.topic ≠ Utf8.encode topic := by
  have horderly := hcomes.orderly
  refine ⟨?_, ?_, ?_⟩
  · intro topic actions hturn hlasts other hother
    obtain ⟨hconcerns, hsent⟩ := hturn.serves horderly.producer.identified hlasts
    obtain ⟨hclient, hreaders⟩ := hconcerns.spares horderly.producer hother
    exact ⟨hclient, hreaders, fun packet hmem hsame =>
      hother (Utf8.encode_inj.mp (hsame.symm.trans (hsent packet hmem)))⟩
  · intro topic packet chance outcome random hname hreply hidle
    exact horderly.reply_of_idle_spec hname hreply hidle chance outcome random
  · intro topic publication actions hfound hhalted
    obtain ⟨offset, hstands⟩ := horderly.producer.placed topic publication hfound
    exact ⟨offset, hstands, horderly.halted_run hfound hhalted hstands actions⟩

/-- The service wants bytes of one of two topics from behind the end of its log. That topic is given up,
    while the other goes on. -/
theorem isolated_after_refused_reset :
    let loop := (start {} {} [.journal [] 0 []] 0).performAll [.register "a" 0,
      .append "a" [1, 2] 10 ⟨0, 0⟩, .register "b" 0, .append "b" [3] 10 ⟨0, 0⟩, .connect, .visit 0,
      .finishRead (.ok [1, 2]) 0, .visit 0, .finishRead (.ok [3]) 0,
      .reply (.reset (Utf8.encode "a") 5) 0, .visit 0]
    let later := loop.performAll (.reply (.ack (Utf8.encode "b")) 0 :: look (.ok []) fun _ => 0)
    let unasked := loop.performAll (.reply (.ack (Utf8.encode "a")) 0 :: look (.ok []) fun _ => 0)
    (loop.producer.client.publication? "b").bind (·.outstanding) = some 1 ∧
      (later.producer.client.publication? "b").bind (·.outstanding) = none ∧
      later.producer.client.publication? "a" = loop.producer.client.publication? "a" ∧
      unasked.producer.sinks = loop.producer.sinks ∧
      ∃ publication, loop.producer.client.publication? "a" = some publication ∧
        publication.halted = true ∧
        ∀ actions, ∀ packet ∈ loop.sent actions, packet.topic ≠ Utf8.encode "a" := by
  intro loop later unasked
  have hcomes : Comes loop := by
    have hstart : Comes (start {} {} [.journal [] 0 []] 0) := .start {} {} _ 0
    have hadded := (((hstart.perform (.register "a" 0)).perform
      (.append "a" [1, 2] 10 ⟨0, 0⟩)).perform (.register "b" 0)).perform
        (.append "b" [3] 10 ⟨0, 0⟩)
    have hpublished := ((((hadded.perform .connect).perform (.visit 0)).perform
      (.finishRead (.ok [1, 2]) 0)).perform (.visit 0)).perform (.finishRead (.ok [3]) 0)
    exact (hpublished.perform (.reply (.reset (Utf8.encode "a") 5) 0)).perform (.visit 0)
  have hround : loop.round = some {} := by decide +kernel
  have hlasts : later.round ≠ none := by decide +kernel
  have hwaits : (loop.producer.client.publication? "b").bind (·.outstanding) = some 1 := by
    decide +kernel
  have hhalts : (loop.producer.client.publication? "a").map
      (fun publication => (publication.halted, publication.outstanding)) = some (true, none) := by
    decide +kernel
  obtain ⟨publication, hfound, hstate⟩ := Option.map_eq_some_iff.mp hhalts
  obtain ⟨hhalted, hidle⟩ := Prod.mk.inj hstate
  have hnothing : loop.producer.client.outstanding? "a" = none := by
    rw [Client.outstanding?_eq hfound, hidle, Option.map_none]
  obtain ⟨hturns, hreplies, hgone⟩ := topics_isolated hcomes
  have hname : ∀ topic, Utf8.decode? (Packet.ack (Utf8.encode topic)).topic = some topic :=
    Utf8.decode?_encode
  have hreply : ∀ topic, Packet.IsReply (.ack (Utf8.encode topic)) := fun _ => trivial
  obtain ⟨hsame, -⟩ := hturns "b" _ (.reply hround (hreply "b") (hname "b") 0 (.ok []) _)
    (fun _ => hlasts) "a" (by decide)
  obtain ⟨-, hsinks⟩ := hreplies "a" _ 0 (.ok []) (fun _ => 0) (hname "a") (hreply "a") hnothing
  refine ⟨hwaits, by decide +kernel, hsame, hsinks, publication, hfound, hhalted, fun actions => ?_⟩
  obtain ⟨-, -, -, hsilent⟩ := hgone "a" publication actions hfound hhalted
  exact hsilent

end ConnectionLoop

end ReplicatedLog
