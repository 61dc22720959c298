import BabelRs.Safety.LastWord
import BabelRs.Safety.Losses
import BabelRs.Safety.Ownership

/-!
# Requests for a local origin

A request for a newer number of a local origin raises the number by one and has it
announced on every interface, unless a selected route for the key is taken to answer the
request first.
-/

set_option autoImplicit false

namespace BabelRs

open Lib Lib.Effect

namespace Engine

variable {P M : Type} {s : Engine P M} {now : UInt64} {key : RouteKey} {origin : Originated}
  {seqno : UInt16}

theorem sendUpdates_origin (timing : Option SendTiming) (found : s.originated.get? key = some origin)
    {interface : InterfaceName} {group : IpAddr} (up : UpOn s interface group) :
    ∃ sent ∈ sentUpdates (sendUpdates now (some key) none timing s).2,
      sent.interface = interface ∧ sent.destination = group ∧
        sent.update =
          s.advertisement interface key s.config.routerId origin.seqno origin.metric := by
  obtain ⟨state, located, rfl⟩ := up
  have each : ∀ name ∈ s.interfaces.keys, Meets
      (fun u (_ : List Action) v => Quiet s u → Quiet s v)
      (sendUpdatesOn now (some key) timing (s.originsFor (some key)) (s.selectedFor (some key))
        (s.tombstonesFor (some key)) name) := by
    intro name _ u quiet
    have announces : Announces nothingLost now u _ _ := sendUpdatesOn_announces
      (s.originsFor (some key)) (s.selectedFor (some key)) (s.tombstonesFor (some key)) (some key)
      timing name s u quiet (originsFor_found s _) (selectedFor_found s _)
    exact quiet.trans announces.quiet
  obtain ⟨early, middle, late, reached, actions, _⟩ := forEach_reaches
    (keeps_chains (Quiet s)) each
    (OrdMap.mem_keys_iff.mpr (OrdMap.containsKey_iff.mpr ⟨state, located⟩)) s
  have quiet := reached (Quiet.refl s)
  obtain ⟨other, there, same⟩ : UpOn middle interface state.policy.controlTransport.multicast :=
    UpOn.of_links quiet.links.symm ⟨state, located, rfl⟩
  refine ⟨⟨interface, other.policy.controlTransport.multicast,
    timing.getD (SendTiming.triggered now other.policy.helloIntervalCs),
    middle.advertisement interface key middle.config.routerId origin.seqno origin.metric⟩,
    ?_, rfl, same.symm, ?_⟩
  · rw [show (sendUpdates now (some key) none timing s).2 = _ from actions, sentUpdates_append,
      sentUpdates_append]
    refine List.mem_append_right _ (List.mem_append_left _ ?_)
    simp [sendUpdatesOn, there, updateTlvs, originsFor, found, wanted, advertiseOrigin, Action.sent,
      sentOn, updatesOf]
  · rw [quiet.config]
    exact advertisement_congr quiet.config quiet.links ..

/-- What a request for the own origin `key` is to do between `m` and `n`. -/
structure Serves (key : RouteKey) (seqno : UInt16) (m n : Engine P M) (actions : List Action) :
    Prop where
  raised : seqnoGt seqno m.sequenceNumber = true → n.sequenceNumber = m.sequenceNumber + 1
  reported : seqnoGt seqno m.sequenceNumber = true → .sequenceNumberChanged n.sequenceNumber ∈ actions
  announced : seqnoGt seqno m.sequenceNumber = true → ∀ interface group, UpOn m interface group →
    ∃ origin, m.originated.get? key = some origin ∧ ∃ sent ∈ sentUpdates actions,
      sent.interface = interface ∧ sent.destination = group ∧ sent.update =
        m.advertisement interface key m.config.routerId n.sequenceNumber origin.metric
  kept : seqnoGt seqno m.sequenceNumber = false → n.sequenceNumber = m.sequenceNumber

theorem handleSeqnoRequest_serves (order : HashOrder) (requester : NeighborKey) (hopCount : UInt8)
    (current : OriginsCurrent s) (own : s.originated.containsKey key = true)
    {before after : List Action} :
    let reply := handleSeqnoRequest order requester key seqno hopCount s.config.routerId now s
    Serves key seqno s reply.1 (before ++ (reply.2 ++ after)) ↔
      (seqnoGt seqno s.sequenceNumber = true →
        (s.selected.get? key).filter (answersRequest · s.config.routerId seqno) = none) := by
  obtain ⟨origin, found⟩ := OrdMap.containsKey_iff.mp own
  have number : origin.seqno = s.sequenceNumber := (current key origin found).1
  intro reply
  cases answered : (s.selected.get? key).filter (answersRequest · s.config.routerId seqno) with
  | some route =>
    have same : reply.1.sequenceNumber = s.sequenceNumber := by
      simp only [reply, handleSeqnoRequest, own, bne_self_eq_false, Bool.and_false, answered,
        Bool.false_eq_true, if_false, updateActionToCandidate]
      split <;> rfl
    constructor
    · intro serves newer
      have raised := serves.raised newer
      rw [same] at raised
      simp at raised
    · intro stale
      have older : seqnoGt seqno s.sequenceNumber = false := by
        cases newer : seqnoGt seqno s.sequenceNumber with
        | false => rfl
        | true => cases stale newer
      exact ⟨by simp [older], by simp [older], by simp [older], fun _ => same⟩
  | none =>
    have answer : reply = answerOwnRequest key seqno origin now s := by
      simp only [reply, handleSeqnoRequest, bne_self_eq_false, Bool.and_false, Bool.false_eq_true,
        if_false, answered, found, beq_self_eq_true, Option.filter_some, if_true]
    refine iff_of_true ?_ fun _ => rfl
    by_cases newer : seqnoGt seqno s.sequenceNumber = true
    · have raised : reply = ((sendUpdates now (some key) none (some (SendTiming.urgent now))
          s.bumpSequenceNumber).1, .sequenceNumberChanged (s.sequenceNumber + 1) ::
        (sendUpdates now (some key) none (some (SendTiming.urgent now)) s.bumpSequenceNumber).2) := by
        simp [answer, answerOwnRequest, when, number, newer, bumpSequenceNumber]
      have announced : Announces nothingLost now s.bumpSequenceNumber _ _ :=
        sendUpdates_announces (some key) none (some (SendTiming.urgent now)) s.bumpSequenceNumber
      have next : reply.1.sequenceNumber = s.sequenceNumber + 1 := by
        rw [raised]
        exact announced.quiet.sequenceNumber
      refine ⟨fun _ => next, fun _ => by rw [next, raised]; simp, fun _ interface group up => ?_, ?_⟩
      · have bumped : s.bumpSequenceNumber.originated.get? key =
            some { origin with seqno := s.sequenceNumber + 1 } := by
          simp [bumpSequenceNumber, found]
        obtain ⟨sent, member, here, there, update⟩ := sendUpdates_origin
          (some (SendTiming.urgent now)) bumped (UpOn.of_links rfl up)
        refine ⟨origin, found, sent, ?_, here, there, ?_⟩
        · rw [raised]
          simp only [sentUpdates_append, sentUpdates_cons, List.mem_append]
          exact Or.inr (Or.inl (Or.inr member))
        · rw [update, next]
          exact advertisement_congr rfl rfl ..
      · simp [newer]
    · have plain : reply = sendUpdates now (some key) none (some (SendTiming.urgent now)) s := by
        simp [answer, answerOwnRequest, when, number, newer]
      have announced : Announces nothingLost now s _ _ :=
        sendUpdates_announces (some key) none (some (SendTiming.urgent now)) s
      refine ⟨by simp [newer], by simp [newer], by simp [newer], fun _ => ?_⟩
      rw [plain]
      exact announced.quiet.sequenceNumber

section Packets
variable [NeighborMetric M] [MetricProfile P M] {neighbour : NeighborKey} {state : InterfaceState P}

theorem reading_receives (order : HashOrder) (packet : Packet) (receiveTimestamp : UInt32)
    (earlier : List Tlv) (up : s.interfaces.get? neighbour.interface = some state)
    (room : s.neighbours.containsKey neighbour = true ∨
      s.neighbours.len < s.config.limits.maxNeighbors ∨ packet.hasHello = false) :
    Receives s (s.reading order neighbour packet now receiveTimestamp earlier) ∧
      (OriginsCurrent s →
        OriginsCurrent (s.reading order neighbour packet now receiveTimestamp earlier)) := by
  have chains : Chains fun (u : Engine P M) (_ : List Action) v =>
      Receives u v ∧ (OriginsCurrent u → OriginsCurrent v) :=
    ⟨fun u => ⟨.refl u, id⟩, fun first second =>
      ⟨first.1.trans second.1, fun current => second.2 (first.2 current)⟩⟩
  have observes : Steps (Observation neighbour now packet.tlvs) s [] _ :=
    observe_observations receiveTimestamp up room
  have observed := observes.fold chains fun move =>
    have senses := move.senses.2
    ⟨⟨senses.config, senses.links, senses.selected, senses.tombstones, senses.advertisedUntil,
      fun _ => by rw [senses.originated], senses.switching⟩, senses.toReconfigures.originsCurrent⟩
  have greets : Steps (Utterance false now) _ _ _ := dueIhu_utters neighbour
    (s.observe state neighbour packet now receiveTimestamp).2.2
    (s.observe state neighbour packet now receiveTimestamp).1
  have quiet := (utterances_announces greets : Announces nothingLost now _ _ _).quiet
  have processed := (receiveTlvs_processes order neighbour earlier
    (s.heardPacket state neighbour packet now receiveTimestamp)).fold chains fun _ order u => by
      obtain ⟨_, _, effect⟩ := receiveTlv_effect order neighbour now _ u
      exact ⟨effect.receives, effect.originsCurrent⟩
  simp only [reading, up]
  exact ⟨(observed.1.trans quiet.toFrame.receives).trans processed.1, fun current =>
    processed.2 ((observed.2 current).of_same quiet.originated quiet.sequenceNumber)⟩

/-- Every origin has the current number, and a request for one under the own router-id is
served at its place in the packet if and only if it does not ask for a newer number or no
selected route for the key answers it. -/
theorem own_request_is_served_iff {history : List (Event P × List Action)} {s t : Engine P M}
    (run : RunOf anyEvent history s) {order : HashOrder} {event : Event P} {actions : List Action}
    (handled : tryHandle order event s = .ok (t, actions)) {neighbour : NeighborKey}
    {packet : Packet} {now : UInt64} {receiveTimestamp : UInt32}
    (brings : event.Brings neighbour packet now receiveTimestamp) {state : InterfaceState P}
    (up : s.interfaces.get? neighbour.interface = some state)
    (family : state.policy.controlTransport.multicast.isIpv4 = neighbour.address.isIpv4)
    (room : s.neighbours.containsKey neighbour = true ∨
      s.neighbours.len < s.config.limits.maxNeighbors ∨ packet.hasHello = false)
    {key : RouteKey} {seqno : UInt16} {hopCount : UInt8} {subTlvs : List SubTlv}
    {earlier later : List Tlv} (listed : packet.tlvs =
      earlier ++ .seqnoRequest key seqno hopCount s.config.routerId subTlvs :: later)
    (own : s.originated.containsKey key = true) :
    let before := s.reading order neighbour packet now receiveTimestamp earlier
    let after := s.reading order neighbour packet now receiveTimestamp
      (earlier ++ [.seqnoRequest key seqno hopCount s.config.routerId subTlvs])
    (∀ other origin, s.originated.get? other = some origin → origin.seqno = s.sequenceNumber) ∧
      t.sequenceNumber =
        (s.reading order neighbour packet now receiveTimestamp packet.tlvs).sequenceNumber ∧
      (Serves key seqno before after actions ↔
        (seqnoGt seqno before.sequenceNumber = true →
          (s.selected.get? key).filter (answersRequest · s.config.routerId seqno) = none)) := by
  intro before after
  have current := run.originsCurrent
  obtain ⟨_, rfl, rfl⟩ := tryHandle_ok handled
  have received : handleValidated order event s =
      receive order neighbour.interface neighbour.address packet now receiveTimestamp s := by
    rcases brings with rfl | ⟨rfl, rfl⟩ <;> rfl
  obtain ⟨-, number, front, back, sends⟩ :=
    receive_reading order packet now receiveTimestamp up family room
  obtain ⟨receives, keeps⟩ :=
    reading_receives order packet receiveTimestamp earlier up room
  refine ⟨fun other origin found => (current other origin found).1, ?_, ?_⟩
  · rw [← number, ← received]
    rfl
  · have kept : before.originated.containsKey key = true := by
      obtain ⟨origin, found⟩ := OrdMap.containsKey_iff.mp own
      have same := receives.metrics key
      rw [found] at same
      obtain ⟨other, there, _⟩ := Option.map_eq_some_iff.mp same
      exact OrdMap.containsKey_iff.mpr ⟨other, there⟩
    have config : before.config = s.config := receives.config
    have selected : before.selected = s.selected := receives.selected
    have reply : after = (handleSeqnoRequest order neighbour key seqno hopCount
        before.config.routerId now before).1 := by
      rw [config]
      simp [after, before, reading, up, forEach_append, receiveTlv]
    have sent : ∃ front back, (handleValidated order event s).2 = front ++
        ((handleSeqnoRequest order neighbour key seqno hopCount before.config.routerId now before).2 ++
          back) := by
      rw [received, sends, listed, forEach_append, config]
      simp only [before, reading, up, andThen_apply, forEach_cons, receiveTlv,
        List.append_assoc]
      exact ⟨front ++ _, _, (List.append_assoc _ _ _).symm⟩
    obtain ⟨first, last, sent⟩ := sent
    rw [sent, reply, ← selected, ← config]
    exact handleSeqnoRequest_serves order neighbour hopCount (keeps current) kept

end Packets

section Concrete
open Conformance

def originating : List (Event BuiltinProfile) :=
  [.interfaceUp (link 1) [] 0,
    .originate destination 0 0,
    packet (link 1) (address 2) (greeting 96) 1]

def ownRequest : Tlv :=
  .seqnoRequest destination 8 64 (nodeId 0) []

/-- Without a learned route the number is raised to 8. -/
theorem unlearned_origin_is_raised :
    ∃ s t : Harness, ∃ actions, (∃ history, RunOf anyEvent history s) ∧
      Step anyEvent s (packet (link 1) (address 2) [ownRequest] 2) actions t ∧
      t.sequenceNumber = 8 := by
  obtain ⟨history, s, run, known, attached, own, self, unlearned, number⟩ :=
    run_of_checked_play anyEvent (harness (nodeId 0)) originating
    (fun _ (s : Harness) =>
      s.neighbours.containsKey ⟨link 1, address 2⟩ = true ∧
        (s.interfaces.get? (link 1)).any (fun state =>
          state.policy.controlTransport.multicast.isIpv4 == false) = true ∧
        s.originated.containsKey destination = true ∧ s.config.routerId = nodeId 0 ∧
        s.selected.get? destination = none ∧
        (s.reading HashOrder.stored ⟨link 1, address 2⟩ ⟨[ownRequest]⟩ 2 (timestampUs 2)
          []).sequenceNumber = 7)
    rfl (by decide +kernel)
  obtain ⟨state, up, family⟩ := (Option.any_eq_true _ _).mp attached
  have handled := tryHandle_valid (packet (link 1) (address 2) [ownRequest] 2) rfl HashOrder.stored s
  obtain ⟨-, same, served⟩ := own_request_is_served_iff run handled (Or.inr ⟨rfl, rfl⟩) up
    (eq_of_beq family) (Or.inl known)
    (show [ownRequest] = [] ++ .seqnoRequest destination 8 64 s.config.routerId [] :: [] by
      rw [self]; rfl) own
  have serves := served.mpr fun _ => by rw [unlearned]; rfl
  refine ⟨s, _, _, ⟨history, run⟩, ⟨rfl, _, handled⟩, same.trans ?_⟩
  have raised := serves.raised (by rw [number]; decide)
  rw [number, self] at raised
  exact raised

/-- The neighbour has announced the origin's key itself: its route is taken to answer the
request, and the number stays. -/
theorem learned_route_starves_own_request :
    ∃ (history : List (Event BuiltinProfile × List Action)) (before after : Harness)
        (actions : List Action),
      RunOf anyEvent history before ∧
        Step anyEvent before (packet (link 1) (address 2) [ownRequest] 3) actions after ∧
        before.originated.containsKey destination = true ∧ before.config.routerId = nodeId 0 ∧
        seqnoGt 8 before.sequenceNumber = true ∧
        after.sequenceNumber = before.sequenceNumber := by
  exact step_of_checked_play anyEvent
    (harness (nodeId 0))
    (originating ++
      [packet (link 1) (address 2) [routeUpdate destination (address 2) (nodeId 1) 100 0] 2])
    (packet (link 1) (address 2) [ownRequest] 3) _ rfl (by decide +kernel)

end Concrete

end Engine

end BabelRs
