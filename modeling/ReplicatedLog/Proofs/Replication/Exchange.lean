import ReplicatedLog.Proofs.Replication.Replies
import ReplicatedLog.Proofs.Replication.Serving
import ReplicatedLog.Proofs.Replication.System

namespace ReplicatedLog

/-- The replication of one topic. -/
structure Exchange where
  /-- Every byte that was ever added at the client. -/
  history : Bytes
  /-- Where what the client still has of them starts. -/
  first : Nat
  /-- Every byte that the service was ever given. -/
  received : Bytes
  /-- Where what the service still has of them starts. -/
  floor : Nat
  standing : Option Standing
  /-- The packets under way: replies in front of publishes, both in the order they were sent. -/
  flight : List Packet
  /-- The offsets that the sinks of the client were told. -/
  told : List Nat

/-- A place where nothing waits for a reply. -/
def Standing.rest (standing : Standing) : Standing :=
  { standing with outstanding := none }

namespace Exchange

/-- How an action changes the replication of a topic. An action that is about other topics, or that
    fails, leaves it alone. -/
inductive Step (topic : String) (action : System.Action) (exchange : Exchange) : Exchange → Prop
  | aside : Step topic action exchange exchange
  | grown (data : Bytes) (rollSize : Nat) (now : Instant)
      (haction : action = .append topic data rollSize now) :
      Step topic action exchange { exchange with history := exchange.history ++ data }
  | cleaned (first : Nat)
      (haction : (∃ retain now, action = .cleanup topic retain now) ∨
        ∃ retain external now, action = .cleanupAll topic retain external now)
      (hbefore : ∀ place, exchange.standing = some place → first ≤ max exchange.first place.offset) :
      Step topic action exchange { exchange with first }
  | joined (offset : Nat) (haction : action.Joins topic offset)
      (hnone : exchange.standing = none) (hfirst : exchange.first ≤ offset) :
      Step topic action exchange { exchange with standing := some ⟨offset, none⟩ }
  | left (handle : Handle) (haction : action = .remove handle) :
      Step topic action exchange { exchange with standing := none }
  | published (offset length : Nat) (hstanding : exchange.standing = some ⟨offset, none⟩)
      (hstart : exchange.first ≤ offset) (hend : offset + length ≤ exchange.history.length) :
      Step topic action exchange { exchange with
        standing := some ⟨offset, some length⟩
        flight := exchange.flight ++
          [.publish offset (Utf8.encode topic) ((exchange.history.drop offset).take length)] }
  | served (front back : List Packet) (offset : Nat) (name data : Bytes) (outcome : PublishOutcome)
      (hflight : exchange.flight = front ++ .publish offset name data :: back)
      (hfront : ∀ packet ∈ front, packet.IsReply) (received : Bytes)
      (houtcome : outcome = .written ∧ offset = exchange.received.length ∧
          received = exchange.received ++ data ∨
        outcome = .reset exchange.received.length ∧ received = exchange.received ∨
        (∃ fault, outcome = .failed fault) ∧ received = exchange.received) :
      Step topic action exchange { exchange with
        received, flight := front ++ outcome.reply name :: back }
  | answered (reply : Packet) (back : List Packet) (offset length : Nat)
      (hflight : exchange.flight = reply :: back) (hreply : reply.IsReply)
      (hstanding : exchange.standing = some ⟨offset, some length⟩) :
      Step topic action exchange { exchange with
        standing := some
          ⟨reply.resumes exchange.first exchange.history.length offset length, none⟩
        flight := back
        told := (reply.claims offset length).toList ++ exchange.told }
  | ignored (reply : Packet) (back : List Packet) (hflight : exchange.flight = reply :: back)
      (hidle : exchange.standing.bind (·.outstanding) = none) :
      Step topic action exchange { exchange with flight := back }
  | refused (reply : Packet) (back : List Packet) (offset length : Nat)
      (hflight : exchange.flight = reply :: back) (hreply : reply.IsReply)
      (hstanding : exchange.standing = some ⟨offset, some length⟩) :
      Step topic action exchange { exchange with
        standing := some ⟨offset, none⟩
        flight := []
        told := (reply.claims offset length).toList ++ exchange.told }
  | lost :
      Step topic action exchange { exchange with
        standing := exchange.standing.map Standing.rest, flight := [] }

variable {topic : String} {action : System.Action} {exchange after : Exchange}

/-- What the service has is the start of what the client had, and so is what is under way. -/
structure Faithful (exchange : Exchange) : Prop where
  received : exchange.received <+: exchange.history
  pieces : ∀ offset name data, .publish offset name data ∈ exchange.flight →
    offset + data.length ≤ exchange.history.length ∧
      data = (exchange.history.drop offset).take data.length

/-- A piece of history goes on to be one when history goes on. -/
theorem piece_append {history : Bytes} {offset : Nat} {data : Bytes}
    (hend : offset + data.length ≤ history.length)
    (hdata : data = (history.drop offset).take data.length) (more : Bytes) :
    data = ((history ++ more).drop offset).take data.length := by
  rw [List.drop_append_of_le_length (by omega),
    List.take_append_of_le_length (by rw [List.length_drop]; omega)]
  exact hdata

/-- A piece of history that starts where a start of history ends makes that longer. -/
theorem prefix_piece {history start data : Bytes} (hleads : start <+: history)
    (hdata : data = (history.drop start.length).take data.length) : start ++ data <+: history := by
  obtain ⟨rest, rfl⟩ := hleads
  rw [List.drop_left] at hdata
  rw [hdata]
  exact (List.prefix_append_right_inj start).mpr (List.take_prefix _ _)

theorem Faithful.step (hfaithful : exchange.Faithful) (hstep : exchange.Step topic action after) :
    after.Faithful := by
  obtain ⟨hreceived, hpieces⟩ := hfaithful
  cases hstep with
  | aside => exact ⟨hreceived, hpieces⟩
  | grown data rollSize now haction =>
    refine ⟨hreceived.trans (List.prefix_append _ _), fun offset name piece hmem => ?_⟩
    obtain ⟨hend, hpiece⟩ := hpieces offset name piece hmem
    refine ⟨?_, piece_append hend hpiece data⟩
    rw [List.length_append]
    omega
  | cleaned => exact ⟨hreceived, hpieces⟩
  | joined => exact ⟨hreceived, hpieces⟩
  | left => exact ⟨hreceived, hpieces⟩
  | published offset length hstanding hstart hend =>
    refine ⟨hreceived, fun place name data hmem => ?_⟩
    rcases List.mem_append.mp hmem with hold | hnew
    · exact hpieces place name data hold
    · obtain ⟨rfl, rfl, rfl⟩ := Packet.publish.inj (List.mem_singleton.mp hnew)
      have hlength : ((exchange.history.drop place).take length).length = length := by
        rw [List.length_take, List.length_drop]
        omega
      rw [hlength]
      exact ⟨hend, rfl⟩
  | served front back offset name data outcome hflight hfront received houtcome =>
    have hothers : ∀ place other piece,
        .publish place other piece ∈ front ++ outcome.reply name :: back →
          .publish place other piece ∈ exchange.flight := by
      intro place other piece hmem
      rw [hflight]
      rcases List.mem_append.mp hmem with hmem | hmem
      · exact List.mem_append_left _ hmem
      · rcases List.mem_cons.mp hmem with hreply | hmem
        · cases outcome <;> cases hreply
        · exact List.mem_append_right _ (List.mem_cons_of_mem _ hmem)
    refine ⟨?_, fun place other piece hmem => hpieces place other piece (hothers place other piece hmem)⟩
    have hdata := (hpieces offset name data (by simp [hflight])).2
    rcases houtcome with ⟨-, rfl, rfl⟩ | ⟨-, rfl⟩ | ⟨-, rfl⟩
    · exact prefix_piece hreceived hdata
    · exact hreceived
    · exact hreceived
  | answered reply back offset length hflight =>
    exact ⟨hreceived, fun place name data hmem =>
      hpieces place name data (hflight ▸ List.mem_cons_of_mem _ hmem)⟩
  | ignored reply back hflight =>
    exact ⟨hreceived, fun place name data hmem =>
      hpieces place name data (hflight ▸ List.mem_cons_of_mem _ hmem)⟩
  | refused => exact ⟨hreceived, fun _ _ _ hmem => by cases hmem⟩
  | lost => exact ⟨hreceived, fun _ _ _ hmem => by cases hmem⟩

/-- Neither side forgets a byte. -/
theorem Step.prefixes (hstep : exchange.Step topic action after) :
    exchange.history <+: after.history ∧ exchange.received <+: after.received := by
  have hhistory := List.prefix_refl exchange.history
  have hreceived := List.prefix_refl exchange.received
  cases hstep with
  | grown data => exact ⟨List.prefix_append _ _, hreceived⟩
  | served front back offset name data outcome hflight hfront received houtcome =>
    rcases houtcome with ⟨-, -, rfl⟩ | ⟨-, rfl⟩ | ⟨-, rfl⟩
    · exact ⟨hhistory, List.prefix_append _ _⟩
    · exact ⟨hhistory, hreceived⟩
    · exact ⟨hhistory, hreceived⟩
  | _ => exact ⟨hhistory, hreceived⟩

/-- Only what is appended becomes part of history. -/
theorem Step.history_eq (hstep : exchange.Step topic action after)
    (hother : ∀ data rollSize now, action ≠ .append topic data rollSize now) :
    after.history = exchange.history := by
  cases hstep with
  | grown data rollSize now haction => exact absurd haction (hother data rollSize now)
  | _ => rfl

theorem Step.floor_eq (hstep : exchange.Step topic action after) : after.floor = exchange.floor := by
  cases hstep <;> rfl

/-- A packet under way is the publish that waits, or a reply to it which claims no more than the
    service has. -/
def Settles (exchange : Exchange) (offset length : Nat) (packet : Packet) : Prop :=
  (∃ name data, packet = .publish offset name data ∧ data.length = length) ∨
    packet.IsReply ∧ ∀ place, packet.claims offset length = some place →
      place ≤ exchange.received.length

/-- Nothing is under way for a topic but the publish that waits, or the reply to it. -/
structure Credited (exchange : Exchange) : Prop where
  idle : ∀ offset, exchange.standing = some ⟨offset, none⟩ → exchange.flight = []
  waits : ∀ offset length, exchange.standing = some ⟨offset, some length⟩ →
    ∃ packet, exchange.flight = [packet] ∧ exchange.Settles offset length packet

/-- A reply that arrives while a publish waits is the reply to it. -/
theorem Credited.claims_le (hcredited : exchange.Credited) {reply : Packet} {back : List Packet}
    {offset length : Nat} (hflight : exchange.flight = reply :: back) (hreply : reply.IsReply)
    (hstanding : exchange.standing = some ⟨offset, some length⟩) :
    back = [] ∧ ∀ place, reply.claims offset length = some place →
      place ≤ exchange.received.length := by
  obtain ⟨packet, hsingle, hsettles⟩ := hcredited.waits offset length hstanding
  rw [hflight] at hsingle
  obtain ⟨rfl, rfl⟩ := List.cons.inj hsingle
  rcases hsettles with ⟨name, data, rfl, -⟩ | ⟨-, hclaims⟩
  · exact hreply.elim
  · exact ⟨rfl, hclaims⟩

/-- A topic that is taken up only while nothing of it is under way keeps its replies apart. -/
theorem Credited.step (hcredited : exchange.Credited) (hstep : exchange.Step topic action after)
    (hjoins : ∀ offset, action.Joins topic offset → exchange.standing = none →
      exchange.flight = []) :
    after.Credited := by
  obtain ⟨hidle, hwaits⟩ := id hcredited
  cases hstep with
  | aside => exact hcredited
  | grown => exact ⟨hidle, hwaits⟩
  | cleaned => exact ⟨hidle, hwaits⟩
  | joined offset haction hnone hfirst => exact ⟨fun _ _ => hjoins offset haction hnone, nofun⟩
  | left => exact ⟨nofun, nofun⟩
  | published offset length hstanding hstart hend =>
    refine ⟨nofun, fun place count hother => ?_⟩
    obtain ⟨rfl, hcount⟩ := Standing.mk.inj (Option.some.inj hother)
    obtain rfl := Option.some.inj hcount
    have hlength : ((exchange.history.drop offset).take length).length = length := by
      rw [List.length_take, List.length_drop]
      omega
    refine ⟨_, ?_, Or.inl ⟨Utf8.encode topic, _, rfl, hlength⟩⟩
    rw [hidle offset hstanding, List.nil_append]
  | served front back offset name data outcome hflight hfront received houtcome =>
    refine ⟨fun place hstanding => ?_, fun place count hstanding => ?_⟩
    · have hnone := hidle place hstanding
      rw [hflight] at hnone
      simp at hnone
    · obtain ⟨packet, hsingle, hsettles⟩ := hwaits place count hstanding
      rw [hflight] at hsingle
      obtain ⟨rfl, rfl, rfl⟩ : front = [] ∧ packet = .publish offset name data ∧ back = [] := by
        rcases List.append_eq_singleton_iff.mp hsingle with ⟨hnil, hrest⟩ | ⟨-, hrest⟩
        · obtain ⟨hpacket, hback⟩ := List.cons.inj hrest
          exact ⟨hnil, hpacket.symm, hback⟩
        · cases hrest
      refine ⟨outcome.reply name, rfl, Or.inr ⟨outcome.isReply_reply name, fun told hclaims => ?_⟩⟩
      rcases hsettles with ⟨_, _, hpublish, hlength⟩ | ⟨hreply, -⟩
      · obtain ⟨rfl, rfl, rfl⟩ := Packet.publish.inj hpublish
        change told ≤ received.length
        rcases houtcome with ⟨rfl, rfl, rfl⟩ | ⟨rfl, rfl⟩ | ⟨⟨fault, rfl⟩, rfl⟩
        · obtain rfl := Option.some.inj hclaims
          rw [List.length_append, hlength]
        · obtain rfl := Option.some.inj hclaims
          exact le_rfl
        · cases hclaims
      · exact hreply.elim
  | answered reply back offset length hflight hreply hstanding =>
    obtain ⟨rfl, -⟩ := hcredited.claims_le hflight hreply hstanding
    exact ⟨fun _ _ => rfl, nofun⟩
  | ignored reply back hflight hnothing =>
    refine ⟨fun place hstanding => ?_, fun place count hstanding => ?_⟩
    · have hnone := hidle place hstanding
      rw [hflight] at hnone
      cases hnone
    · have hwaiting : exchange.standing = some ⟨place, some count⟩ := hstanding
      rw [hwaiting] at hnothing
      cases hnothing
  | refused => exact ⟨fun _ _ => rfl, nofun⟩
  | lost =>
    refine ⟨fun _ _ => rfl, fun place count hstanding => ?_⟩
    cases hplace : exchange.standing <;> simp [hplace, Standing.rest] at hstanding

/-- No one is told more than the service has. -/
theorem Credited.told_le (hcredited : exchange.Credited) (hstep : exchange.Step topic action after)
    (htold : ∀ offset ∈ exchange.told, offset ≤ exchange.received.length) :
    ∀ offset ∈ after.told, offset ≤ after.received.length := by
  have hgrows := hstep.prefixes.2.length_le
  have hclaimed : ∀ reply back offset length, exchange.flight = reply :: back → reply.IsReply →
      exchange.standing = some ⟨offset, some length⟩ →
      ∀ place ∈ (reply.claims offset length).toList ++ exchange.told,
        place ≤ exchange.received.length := by
    intro reply back offset length hflight hreply hstanding place hmem
    rcases List.mem_append.mp hmem with hnew | hold
    · exact (hcredited.claims_le hflight hreply hstanding).2 place (Option.mem_toList.mp hnew)
    · exact htold place hold
  cases hstep with
  | served => exact fun offset hmem => (htold offset hmem).trans hgrows
  | answered reply back offset length hflight hreply hstanding =>
    exact hclaimed reply back offset length hflight hreply hstanding
  | refused reply back offset length hflight hreply hstanding =>
    exact hclaimed reply back offset length hflight hreply hstanding
  | _ => exact htold

/-- A topic that was never taken up beyond what the service had. Its place is behind nothing that the
    service lacks, and so is all that was cleaned up. -/
structure Anchored (exchange : Exchange) : Prop where
  silent : exchange.standing = none → exchange.flight = []
  place : ∀ place, exchange.standing = some place →
    place.offset ≤ exchange.received.length ∧ exchange.first ≤ exchange.received.length
  start : ∀ offset length, exchange.standing = some ⟨offset, some length⟩ → exchange.first ≤ offset
  resets : ∀ offset length name place, exchange.standing = some ⟨offset, some length⟩ →
    .reset name place ∈ exchange.flight → offset ≤ place

/-- A reply takes a topic no further than the service has it. -/
theorem resumes_le {reply : Packet} {first last offset length bound : Nat} (hoffset : offset ≤ bound)
    (hclaims : ∀ place, reply.claims offset length = some place → place ≤ bound) :
    reply.resumes first last offset length ≤ bound := by
  cases reply with
  | publish => exact hoffset
  | ack name => exact hclaims _ rfl
  | reset name place =>
    change (if first ≤ place ∧ place ≤ last then place else offset) ≤ bound
    split
    · exact hclaims place rfl
    · exact hoffset
  | failure name => exact hoffset

theorem Anchored.step (hanchored : exchange.Anchored) (hcredited : exchange.Credited)
    (hstep : exchange.Step topic action after) (hstays : ∀ handle, action ≠ .remove handle)
    (hjoins : ∀ offset, action.Joins topic offset → offset ≤ exchange.received.length) :
    after.Anchored := by
  obtain ⟨hsilent, hplace, hstart, hresets⟩ := id hanchored
  have hprefixes := hstep.prefixes
  cases hstep with
  | aside => exact hanchored
  | grown => exact ⟨hsilent, hplace, hstart, hresets⟩
  | cleaned first haction hbefore =>
    refine ⟨hsilent, fun place hstanding => ?_, fun offset length hstanding => ?_, hresets⟩
    · obtain ⟨hoffset, hfirst⟩ := hplace place hstanding
      exact ⟨hoffset, (hbefore place hstanding).trans (max_le hfirst hoffset)⟩
    · exact (hbefore _ hstanding).trans (max_le (hstart offset length hstanding) le_rfl)
  | joined offset haction hnone hfirst =>
    have hoffset := hjoins offset haction
    refine ⟨nofun, fun place hstanding => ?_, nofun, nofun⟩
    obtain rfl := Option.some.inj hstanding
    exact ⟨hoffset, hfirst.trans hoffset⟩
  | left handle haction => exact absurd haction (hstays handle)
  | published offset length hstanding hbegin hend =>
    have hflight := hcredited.idle offset hstanding
    refine ⟨nofun, fun place hother => ?_, fun place count hother => ?_,
      fun place count name target hother hmem => ?_⟩
    · obtain rfl := Option.some.inj hother
      have hold := hplace _ hstanding
      exact hold
    · obtain ⟨rfl, -⟩ := Standing.mk.inj (Option.some.inj hother)
      exact hbegin
    · simp [hflight] at hmem
  | served front back offset name data outcome hflight hfront received houtcome =>
    have hgrows : exchange.received.length ≤ received.length := hprefixes.2.length_le
    refine ⟨fun hnone => ?_, fun place hstanding => ?_, hstart,
      fun place count other target hstanding hmem => ?_⟩
    · have hempty := hsilent hnone
      simp [hflight] at hempty
    · obtain ⟨hoffset, hfirst⟩ := hplace place hstanding
      exact ⟨hoffset.trans hgrows, hfirst.trans hgrows⟩
    · rcases List.mem_append.mp hmem with hmem | hmem
      · exact hresets place count other target hstanding (hflight ▸ List.mem_append_left _ hmem)
      · rcases List.mem_cons.mp hmem with hreply | hmem
        · rcases houtcome with ⟨rfl, -, -⟩ | ⟨rfl, -⟩ | ⟨⟨fault, rfl⟩, -⟩
          · cases hreply
          · obtain ⟨-, rfl⟩ := Packet.reset.inj hreply
            exact (hplace _ hstanding).1
          · cases hreply
        · exact hresets place count other target hstanding
            (hflight ▸ List.mem_append_right _ (List.mem_cons_of_mem _ hmem))
  | answered reply back offset length hflight hreply hstanding =>
    obtain ⟨rfl, hclaims⟩ := hcredited.claims_le hflight hreply hstanding
    obtain ⟨hoffset, hfirst⟩ := hplace _ hstanding
    refine ⟨nofun, fun place hother => ?_, nofun, nofun⟩
    obtain rfl := Option.some.inj hother
    exact ⟨resumes_le hoffset hclaims, hfirst⟩
  | ignored reply back hflight hidle =>
    refine ⟨fun hnone => ?_, hplace, hstart, fun place count other target hstanding hmem =>
      hresets place count other target hstanding (hflight ▸ List.mem_cons_of_mem _ hmem)⟩
    have hempty := hsilent hnone
    simp [hflight] at hempty
  | refused reply back offset length hflight hreply hstanding =>
    refine ⟨nofun, fun place hother => ?_, nofun, nofun⟩
    obtain rfl := Option.some.inj hother
    have hold := hplace _ hstanding
    exact hold
  | lost =>
    refine ⟨fun _ => rfl, fun place hstanding => ?_, fun place count hstanding => ?_, nofun⟩
    · obtain ⟨old, hold, rfl⟩ := Option.map_eq_some_iff.mp hstanding
      exact hplace old hold
    · obtain ⟨old, hold, hrest⟩ := Option.map_eq_some_iff.mp hstanding
      cases hrest

/-- What lies before a topic that was never taken up is not cleaned up. -/
theorem Step.first_eq (hstep : exchange.Step topic action after)
    (hstays : ∀ handle, action ≠ .remove handle)
    (hcleans : exchange.standing = none →
      (∀ retain now, action ≠ .cleanup topic retain now) ∧
      ∀ retain external now, action ≠ .cleanupAll topic retain external now)
    (hnone : after.standing = none) :
    exchange.standing = none ∧ after.first = exchange.first := by
  cases hstep with
  | cleaned first haction hbefore =>
    obtain ⟨hcleanup, hcleanupAll⟩ := hcleans hnone
    rcases haction with ⟨retain, now, haction⟩ | ⟨retain, external, now, haction⟩
    · exact absurd haction (hcleanup retain now)
    · exact absurd haction (hcleanupAll retain external now)
  | left handle haction => exact absurd haction (hstays handle)
  | lost => exact ⟨Option.map_eq_none_iff.mp hnone, rfl⟩
  | joined => cases hnone
  | published => cases hnone
  | answered => cases hnone
  | refused => cases hnone
  | _ => exact ⟨hnone, rfl⟩

end Exchange

end ReplicatedLog
