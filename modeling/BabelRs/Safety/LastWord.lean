import BabelRs.Safety.Accounting
import BabelRs.Safety.Requests

/-!
# The last Update of a packet

A neighbour is only known on an interface of its own address family, so its
packets are processed and the last Update for a key decides what is stored for
it.  The exception is an infeasible Update over the selected route, which is
ignored: an earlier Update of the same packet may have replaced the candidate.
-/

set_option autoImplicit false

namespace BabelRs

open Lib Lib.Effect

/-- The event that brings a packet, however its time of arrival was taken. -/
def Event.Brings {P : Type} (event : Event P) (neighbour : NeighborKey) (packet : Packet)
    (now : UInt64) (receiveTimestamp : UInt32) : Prop :=
  event = .packetReceivedWithTimestamp neighbour.interface neighbour.address packet now
      receiveTimestamp ∨
    event = .packetReceived neighbour.interface neighbour.address packet now ∧
      receiveTimestamp = timestampUs now

variable (order : HashOrder)

namespace Engine

variable {P M : Type}
variable {s t : Engine P M} {now : UInt64} {event : Event P} {neighbour : NeighborKey}

/-! ## Neighbours and their interfaces -/

/-- Every neighbour sits on an interface that sends in its address family. -/
def Housed (s : Engine P M) : Prop :=
  ∀ neighbour, s.neighbours.containsKey neighbour = true →
    ∃ link, s.links.get? neighbour.interface = some link ∧
      link.2.controlTransport.multicast.isIpv4 = neighbour.address.isIpv4

/-- The transport of an interface decides who is housed on it. -/
theorem Housed.modify (housed : Housed s) {interface : InterfaceName}
    {change : InterfaceState P → InterfaceState P}
    (kept : ∀ state, s.interfaces.get? interface = some state →
      (change state).policy.controlTransport = state.policy.controlTransport) :
    Housed { s with interfaces := s.interfaces.modify interface change } := by
  intro neighbour known
  obtain ⟨link, here, family⟩ := housed neighbour known
  rw [get?_links] at here
  obtain ⟨state, found, rfl⟩ := Option.map_eq_some_iff.mp here
  simp only [get?_links, OrdMap.get?_modify, found, Option.map_some, Option.some.injEq,
    exists_eq_left']
  split
  next same =>
    rw [kept state (same ▸ found)]
    exact family
  next => exact family

/-- The links stay and nobody joins but the sender of the event's packet. -/
structure Joins (event : Event P) (s t : Engine P M) : Prop where
  links : t.links = s.links
  known : ∀ neighbour, t.neighbours.containsKey neighbour = true →
    s.neighbours.containsKey neighbour = true ∨ ∃ tlvs, event.received = some (neighbour, tlvs)

theorem Joins.chains (event : Event P) :
    Chains fun (s : Engine P M) (_ : List Action) t => Joins event s t where
  refl s := ⟨rfl, fun _ => Or.inl⟩
  trans := by
    intro s middle t first second before after
    refine ⟨after.links.trans before.links, fun neighbour known => ?_⟩
    rcases after.known neighbour known with earlier | sender
    · exact before.known neighbour earlier
    · exact Or.inr sender

theorem Joins.of_neighbours (links : t.links = s.links)
    (known : ∀ neighbour, t.neighbours.containsKey neighbour = true →
      s.neighbours.containsKey neighbour = true) : Joins event s t :=
  ⟨links, fun neighbour after => Or.inl (known neighbour after)⟩

theorem Joins.of_adjacencies (links : t.links = s.links)
    (adjacencies : ∀ neighbour, t.adjacency neighbour = s.adjacency neighbour) :
    Joins event s t := by
  refine .of_neighbours links fun neighbour known => ?_
  rw [← containsKey_adjacency, ← adjacencies, containsKey_adjacency]
  exact known

theorem known_of_retain {keep : NeighborKey → Neighbor M → Bool}
    (known : (s.neighbours.retain keep).containsKey neighbour = true) :
    s.neighbours.containsKey neighbour = true := by
  obtain ⟨state, found⟩ := AssocMap.containsKey_iff.mp known
  rw [AssocMap.get?_retain, Option.filter_eq_some_iff] at found
  exact AssocMap.containsKey_iff.mpr ⟨state, found.1⟩

theorem Edit.joins {before : Engine P M} {actions : List Action}
    (edit : Edit before event s actions t) : Joins event s t := by
  cases edit with
  | scheduled _ => exact .of_neighbours rfl fun _ known => known
  | lifted _ => exact .of_neighbours rfl fun _ known => known
  | bumped => exact .of_neighbours rfl fun _ known => known
  | reoriginated _ _ _ => exact .of_neighbours rfl fun _ known => known

/-- A new sender is housed, so everyone is. -/
theorem Joins.housed (joins : Joins event s t) (housed : Housed s)
    (arrived : ∀ neighbour tlvs, event.received = some (neighbour, tlvs) →
      t.neighbours.containsKey neighbour = true →
      ∃ link, s.links.get? neighbour.interface = some link ∧
        link.2.controlTransport.multicast.isIpv4 = neighbour.address.isIpv4) : Housed t := by
  intro neighbour known
  rw [joins.links]
  rcases joins.known neighbour known with before | ⟨tlvs, received⟩
  · exact housed neighbour before
  · exact arrived neighbour tlvs received known

theorem Reconfiguration.housed (change : Reconfiguration now s t) (housed : Housed s) :
    Housed t := by
  have elsewhere : ∀ {interface : InterfaceName} {u : Engine P M} {neighbour : NeighborKey},
      (u.detachNeighbours interface).neighbours.containsKey neighbour = true →
        neighbour.interface ≠ interface ∧ u.neighbours.containsKey neighbour = true := by
    intro interface u neighbour known
    obtain ⟨state, found⟩ := AssocMap.containsKey_iff.mp known
    simp only [detachNeighbours, AssocMap.get?_retain, Option.filter_eq_some_iff,
      decide_eq_true_eq] at found
    exact ⟨found.2, AssocMap.containsKey_iff.mpr ⟨state, found.1⟩⟩
  cases change with
  | unchanged => exact housed
  | attached interface localAddresses policy =>
    unfold attachInterface
    split
    · exact housed
    next absent =>
      intro neighbour known
      obtain ⟨link, here, family⟩ := housed neighbour known
      refine ⟨link, ?_, family⟩
      have apart : interface ≠ neighbour.interface := by
        rintro rfl
        rw [← containsKey_links] at absent
        exact absent (OrdMap.containsKey_iff.mpr ⟨link, here⟩)
      rw [get?_links, OrdMap.get?_insert_of_ne _ _ apart, ← get?_links]
      exact here
  | installed up kept =>
    refine housed.modify fun state found => ?_
    cases up.symm.trans found
    exact kept.symm
  | rehoused interface policy =>
    intro neighbour known
    obtain ⟨apart, before⟩ := elsewhere known
    obtain ⟨link, here, family⟩ := housed neighbour before
    refine ⟨link, ?_, family⟩
    rw [get?_links] at here ⊢
    simp only [detachNeighbours, installPolicy, OrdMap.get?_modify, if_neg apart, Option.map_id']
    exact here
  | readdressed interface localAddresses => exact housed.modify fun _ _ => rfl
  | removed interface =>
    intro neighbour known
    obtain ⟨apart, before⟩ := elsewhere known
    obtain ⟨link, here, family⟩ := housed neighbour before
    refine ⟨link, ?_, family⟩
    rw [get?_links, removeInterface, OrdMap.get?_remove, if_neg apart, ← get?_links]
    exact here
  | replaced policy =>
    intro neighbour known
    exact housed neighbour ((AssocMap.containsKey_mapValues _ _ _).symm.trans known)

section Metric
variable [NeighborMetric M] [MetricProfile P M]

theorem Silent.joins (silent : Silent now s t) : Joins event s t := by
  refine .of_neighbours silent.senses.links fun neighbour known => ?_
  cases silent with
  | aged => exact (AssocMap.containsKey_mapValues _ _ _).symm.trans known
  | silenced => exact known_of_retain known
  | unheard => exact (AssocMap.containsKey_mapValues _ _ _).symm.trans known
  | expired => exact (AssocMap.containsKey_mapValues _ _ _).symm.trans known
  | refreshed _ => exact known
  | recomputed _ => exact known
  | reset _ _ => exact (AssocMap.containsKey_mapValues _ _ _).symm.trans known

theorem Observation.joins {tlvs : List Tlv} (received : event.received = some (neighbour, tlvs))
    {actions : List Action} (observation : Observation neighbour now tlvs s actions t) :
    Joins event s t := by
  have links := observation.senses.2.links
  cases observation with
  | refused _ => exact .of_neighbours links fun _ known => known
  | greeted _ _ _ _ =>
    refine ⟨links, fun other known => ?_⟩
    rw [AssocMap.containsKey_insert, Bool.or_eq_true, decide_eq_true_eq] at known
    rcases known with rfl | known
    · exact Or.inr ⟨tlvs, received⟩
    · exact Or.inl known
  | sampled _ =>
    exact .of_neighbours links fun _ => (AssocMap.containsKey_modify _ _ _ _).symm.trans
  | confirmed _ =>
    exact .of_neighbours links fun _ => (AssocMap.containsKey_modify _ _ _ _).symm.trans
  | recomputed => exact .of_neighbours links fun _ known => known

omit [MetricProfile P M] in
theorem known_receiveTlv (neighbour : NeighborKey) (tlv : Tlv) (state : ReceiveState P M)
    (other : NeighborKey) :
    (receiveTlv order neighbour now tlv state).1.engine.neighbours.containsKey other =
      state.engine.neighbours.containsKey other := by
  obtain ⟨_, _, effect⟩ := receiveTlv_effect order neighbour now tlv state
  have quietly : ∀ {s t : Engine P M}, Quiet s t →
      t.neighbours.containsKey other = s.neighbours.containsKey other := by
    intro s t quiet
    rw [← containsKey_adjacency, quiet.adjacencies, containsKey_adjacency]
  generalize (receiveTlv order neighbour now tlv state).1.engine = t at effect
  generalize (receiveTlv order neighbour now tlv state).2 = actions at effect
  cases effect with
  | announced announces _ => exact quietly announces.quiet
  | bumped key _ announces _ =>
    have same := quietly announces.quiet
    exact same
  | updated update _ effect =>
    cases effect with
    | announced announces _ => exact quietly announces.quiet
    | retractedAll _ _ => rfl
    | retracted _ _ _ => rfl
    | rejected finite _ =>
      simp only [rejectByPolicy]
      split
      · exact AssocMap.containsKey_modify _ _ _ _
      · rfl
    | limited _ => exact AssocMap.containsKey_modify _ _ _ _
    | stored finite state _ _ _ _ _ requests =>
      refine Eq.trans ?_ (quietly (requests_quiet requests))
      simp only [storeCandidate]
      split
      · rfl
      · exact AssocMap.containsKey_modify _ _ _ _

omit [MetricProfile P M] in
theorem receiveTlv_joins (neighbour : NeighborKey) (tlv : Tlv) (state : ReceiveState P M) :
    Joins event state.engine (receiveTlv order neighbour now tlv state).1.engine :=
  .of_neighbours (receiveTlv_receives order neighbour tlv state).links fun other known =>
    (known_receiveTlv order neighbour tlv state other).symm.trans known

theorem moves_joins (event : Event P) :
    Moves event fun (s : Engine P M) _ t => Joins event s t where
  prelude := by
    intro s t actions move
    cases move with
    | sensed silent => exact silent.joins
    | collected => exact .of_neighbours rfl fun _ known => known
    | invalidated => exact .of_neighbours rfl fun _ known => known
  reselects := fun move => .of_adjacencies move.tables.links move.tables.adjacencies
  output := by
    intro s t actions move
    cases move.coda with
    | announced announces => exact .of_adjacencies announces.quiet.links announces.quiet.adjacencies
    | reported => exact .of_neighbours rfl fun _ known => known
    | held _ _ _ => exact .of_neighbours rfl fun _ known => known
    | lifted _ _ => exact .of_neighbours rfl fun _ known => known
  observation := fun received => Observation.joins received
  tlv := fun _ _ order state => receiveTlv_joins order _ _ state

theorem receive_housed (interface : InterfaceName) (source : IpAddr) (packet : Packet)
    (now : UInt64) (receiveTimestamp : UInt32) (housed : Housed s) :
    Housed (receive order interface source packet now receiveTimestamp s).1 := by
  rcases receive_cases order interface source packet now receiveTimestamp s with
    ⟨rejections, dropped⟩ | ⟨state, up, family, _, _⟩
  · rw [dropped]
    exact housed
  · have joins : Joins (.packetReceived interface source packet now) s
        (receive order interface source packet now receiveTimestamp s).1 :=
      (receive_phase order interface source packet receiveTimestamp s).fold_moves (Joins.chains _)
        (moves_joins (.packetReceived interface source packet now)) rfl
    refine joins.housed housed fun neighbour tlvs received _ => ?_
    cases received
    exact ⟨_, (get?_links s interface).trans (congrArg _ up), family⟩

theorem handleValidated_housed (event : Event P) (housed : Housed s) :
    Housed (handleValidated order event s).1 := by
  have silent : event.received = none → Housed (handleValidated order event s).1 := by
    intro unheard
    obtain ⟨start, change, joins⟩ := (handleValidated_dispatched order event s).fold
      (Joins.chains event) (moves_joins event) fun _ _ _ _ => Edit.joins
    refine joins.housed (change.housed housed) fun neighbour tlvs received => ?_
    rw [unheard] at received
    cases received
  cases event with
  | packetReceived interface source packet now =>
    exact receive_housed order interface source packet now _ housed
  | packetReceivedWithTimestamp interface source packet now timestamp =>
    exact receive_housed order interface source packet now timestamp housed
  | _ => exact silent rfl

theorem RunOf.housed {allowed : Engine P M → Event P → Bool}
    {history : List (Event P × List Action)} {engine : Engine P M}
    (run : RunOf allowed history engine) : Housed engine := by
  refine run.invariant (fun _ engine => Housed engine) ?_ ?_
  · intro s starts
    obtain ⟨config, _, rfl⟩ := starts.eq_initial
    intro neighbour known
    cases known
  · rintro history s event actions t housed ⟨_, order, handled⟩
    obtain ⟨_, _, rfl⟩ := tryHandle_ok handled
    exact handleValidated_housed order event housed

/-! ## One packet -/

omit [MetricProfile P M] in
/-- A TLV that names the key in no Update and retracts nothing at large leaves
what is stored for the key. -/
theorem get?_candidates_receiveTlv {key : RouteKey} {tlv : Tlv}
    (elsewhere : ∀ update, tlv = .update update →
      update.key ≠ some key ∧ (update.key = none → update.metric ≠ INFINITY))
    (state : ReceiveState P M) :
    (receiveTlv order neighbour now tlv state).1.engine.candidates.get? (key, neighbour) =
      state.engine.candidates.get? (key, neighbour) := by
  obtain ⟨_, _, effect⟩ := receiveTlv_effect order neighbour now tlv state
  generalize (receiveTlv order neighbour now tlv state).1.engine = t at effect
  generalize (receiveTlv order neighbour now tlv state).2 = actions at effect
  cases effect with
  | announced announces _ => rw [announces.quiet.candidates]
  | bumped _ _ announces _ =>
    rw [announces.quiet.candidates]
    rfl
  | updated update isUpdate effect =>
    obtain ⟨other, finite⟩ := elsewhere update isUpdate
    cases effect with
    | announced announces _ => rw [announces.quiet.candidates]
    | retractedAll wildcard infinite => exact absurd infinite (finite wildcard)
    | retracted retracted named _ =>
      have apart : (key, neighbour) ≠ (retracted, neighbour) := by
        rintro ⟨⟩
        exact other named
      simp only [retractOne, AssocMap.get?_modify, if_neg apart, Option.map_id']
    | rejected content resolved =>
      have apart : (key, neighbour) ≠ (content.key, neighbour) := by
        rintro ⟨⟩
        exact other (resolvedFinite_key resolved)
      simp only [rejectByPolicy]
      split
      · rw [AssocMap.get?_remove, if_neg apart]
      · rfl
    | limited _ => rfl
    | stored content _ resolved _ _ _ _ requests =>
      have apart : (content.key, neighbour) ≠ (key, neighbour) := by
        rintro ⟨⟩
        exact other (resolvedFinite_key resolved)
      rw [storeCandidate, AssocMap.get?_insert_of_ne _ _ apart,
        (requests_quiet requests).candidates]

omit [MetricProfile P M] in
/-- An admitted Update is stored, or ignored over the selected route. -/
theorem get?_candidates_receiveUpdate {update : ResolvedUpdate} {finite : FiniteUpdate}
    (resolved : resolvedFinite update = some finite) (admitted : s.admits neighbour finite = true) :
    ∃ metric, (s.receiveUpdate order neighbour update now).engine.candidates.get?
        (finite.key, neighbour) =
      if s.ignoresRefresh neighbour finite then s.candidates.get? (finite.key, neighbour)
      else some (storedCandidate neighbour finite metric now) := by
  obtain ⟨state, _, received⟩ := receiveUpdate_admitted order resolved admitted
  refine ⟨s.extendedMetric state finite, ?_⟩
  rw [received, admitUpdate_eq]
  split
  · cases s.feasible.get? (finite.key, finite.routerId) <;> rfl
  · exact AssocMap.get?_insert_self _ _ _

/-- The engine as it reads a packet, once the TLVs `earlier` are handled. -/
def reading (order : HashOrder) (neighbour : NeighborKey) (packet : Packet) (now : UInt64)
    (receiveTimestamp : UInt32) (earlier : List Tlv) (s : Engine P M) : Engine P M :=
  match s.interfaces.get? neighbour.interface with
  | none => s
  | some state =>
    (forEach earlier (receiveTlv order neighbour now)
      (s.heardPacket state neighbour packet now receiveTimestamp)).1.engine

/-- A packet that is not refused is read to its end; what follows changes neither the
candidates nor the sequence number. -/
theorem receive_reading (packet : Packet) (now : UInt64) (receiveTimestamp : UInt32)
    {state : InterfaceState P} (up : s.interfaces.get? neighbour.interface = some state)
    (family : state.policy.controlTransport.multicast.isIpv4 = neighbour.address.isIpv4)
    (room : s.neighbours.containsKey neighbour = true ∨
      s.neighbours.len < s.config.limits.maxNeighbors ∨ packet.hasHello = false) :
    let after := receive order neighbour.interface neighbour.address packet now receiveTimestamp s
    let read := s.reading order neighbour packet now receiveTimestamp packet.tlvs
    after.1.candidates = read.candidates ∧ after.1.sequenceNumber = read.sequenceNumber ∧
      ∃ front back, after.2 = front ++ ((forEach packet.tlvs (receiveTlv order neighbour now)
        (s.heardPacket state neighbour packet now receiveTimestamp)).2 ++ back) := by
  have quiet : ∀ keys (u : Engine P M), Quiet u (forEach keys (announceRouterIdChange now) u).1 :=
    fun keys u => (utterances_announces (announceRouterIdChanges_utters keys u :
      Steps (Utterance false now) u _ _) : Announces nothingLost now u _ _).quiet
  have taken : (!s.neighbours.containsKey neighbour &&
      decide (s.neighbours.len ≥ s.config.limits.maxNeighbors) && packet.hasHello) = false := by
    rcases room with known | space | silent
    · simp [known]
    · simp [not_le.mpr space]
    · simp [silent]
  simp only [receive, reading, up, family, taken, bne_self_eq_false, Bool.false_eq_true, if_false]
  exact ⟨(quiet _ _).candidates.trans (when_reselects order _ _).tables.candidates,
    (quiet _ _).sequenceNumber.trans (when_reselects order _ _).tables.sequenceNumber, _, _, rfl⟩

/-- After the last TLV that concerns a key the rest of the packet leaves the candidate. -/
theorem get?_candidates_reading (packet : Packet) (now : UInt64) (receiveTimestamp : UInt32)
    (housed : Housed s) (known : s.neighbours.containsKey neighbour = true) {key : RouteKey}
    {earlier later : List Tlv} {update : ResolvedUpdate} (last : ∀ other, .update other ∈ later →
      other.key ≠ some key ∧ (other.key = none → other.metric ≠ INFINITY)) :
    (s.reading order neighbour packet now receiveTimestamp
        (earlier ++ .update update :: later)).candidates.get? (key, neighbour) =
      ((s.reading order neighbour packet now receiveTimestamp earlier).receiveUpdate order neighbour
        update now).engine.candidates.get? (key, neighbour) := by
  obtain ⟨link, here, _⟩ := housed neighbour known
  rw [get?_links] at here
  obtain ⟨state, up, _⟩ := Option.map_eq_some_iff.mp here
  have chains : Chains fun (u : ReceiveState P M) (_ : List Action) v =>
      v.engine.candidates.get? (key, neighbour) = u.engine.candidates.get? (key, neighbour) :=
    ⟨fun _ => rfl, fun first second => second.trans first⟩
  have rest : ∀ u : ReceiveState P M,
      (forEach later (receiveTlv order neighbour now) u).1.engine.candidates.get?
        (key, neighbour) = u.engine.candidates.get? (key, neighbour) := by
    refine meets_forEach chains fun tlv member u => ?_
    exact get?_candidates_receiveTlv order (fun other isUpdate => last other (isUpdate ▸ member)) u
  simp only [reading, up, forEach_append, andThen_apply]
  exact rest _

/-- The last Update for a key counts unless it is an ignored refresh of the selected
route while another router-id, or nothing, is stored for its sender. -/
theorem last_word_counts_iff {history : List (Event P × List Action)} {s t : Engine P M}
    (run : RunOf anyEvent history s) {order : HashOrder} {event : Event P} {actions : List Action}
    (handled : tryHandle order event s = .ok (t, actions)) {neighbour : NeighborKey}
    {packet : Packet} {now : UInt64} {receiveTimestamp : UInt32}
    (brings : event.Brings neighbour packet now receiveTimestamp)
    (known : s.neighbours.containsKey neighbour = true) {earlier later : List Tlv}
    {update : ResolvedUpdate} {finite : FiniteUpdate}
    (listed : packet.tlvs = earlier ++ .update update :: later)
    (resolved : resolvedFinite update = some finite)
    (last : ∀ other, .update other ∈ later →
      other.key ≠ some finite.key ∧ (other.key = none → other.metric ≠ INFINITY))
    (admitted : (s.reading order neighbour packet now receiveTimestamp earlier).admits neighbour
      finite = true) :
    (∃ candidate, t.candidates.get? (finite.key, neighbour) = some candidate ∧
        candidate.routerId = finite.routerId ∧
        (candidate.seqno = finite.seqno ∧ candidate.advertisedMetric = finite.advertisedMetric ∧
            candidate.nextHop = finite.nextHop ∨
          (s.reading order neighbour packet now receiveTimestamp earlier).sourceFeasible finite.key
            finite.routerId finite.distance = false)) ↔
      ¬ ((s.reading order neighbour packet now receiveTimestamp earlier).ignoresRefresh neighbour
          finite = true ∧
        ((s.reading order neighbour packet now receiveTimestamp earlier).candidates.get?
          (finite.key, neighbour)).map Candidate.routerId ≠ some finite.routerId) := by
  have housed := run.housed
  obtain ⟨_, _, rfl⟩ := tryHandle_ok handled
  have received : handleValidated order event s =
      receive order neighbour.interface neighbour.address packet now receiveTimestamp s := by
    rcases brings with rfl | ⟨rfl, rfl⟩ <;> rfl
  have ends : (noteLifetimes (handleValidated order event s)).candidates =
      (s.reading order neighbour packet now receiveTimestamp packet.tlvs).candidates := by
    obtain ⟨link, here, family⟩ := housed neighbour known
    rw [get?_links] at here
    obtain ⟨state, up, rfl⟩ := Option.map_eq_some_iff.mp here
    rw [received]
    exact (receive_reading order packet now receiveTimestamp up family (Or.inl known)).1
  obtain ⟨metric, stored⟩ := get?_candidates_receiveUpdate order resolved admitted
  rw [ends, listed, get?_candidates_reading order packet now receiveTimestamp housed known last,
    stored]
  generalize s.reading order neighbour packet now receiveTimestamp earlier = m
  cases ignored : m.ignoresRefresh neighbour finite with
  | false =>
    simp only [Bool.false_eq_true, if_false, false_and, not_false_eq_true, iff_true]
    exact ⟨_, rfl, rfl, Or.inl ⟨rfl, rfl, rfl⟩⟩
  | true =>
    -- What counts as ignored is infeasible.
    have infeasible : m.sourceFeasible finite.key finite.routerId finite.distance = false := by
      simpa using (Bool.and_eq_true_iff.mp ignored).1
    simp only [if_true, infeasible, or_true, and_true, true_and, not_not]
    exact Option.map_eq_some_iff.symm

end Metric

section Concrete
open Conformance

def advertisedRoute : List (Event BuiltinProfile) :=
  [.interfaceUp (link 1) [] 0,
    .interfaceUp (link 2) [] 0,
    packet (link 1) (address 2) (greeting 96) 1,
    packet (link 1) (address 2) [routeUpdate destination (address 2) (nodeId 1) 100 0] 2]

/-- Another router-id first, then the selected one with a newer number. -/
def twoWords (seqno metric : UInt16) : List Tlv :=
  [routeUpdate destination (address 2) (nodeId 2) 5 0,
    routeUpdate destination (address 2) (nodeId 1) seqno metric]

/-- A newer number under the selected router-id is the last word. -/
theorem newer_number_counts :
    ∃ s t : Harness, ∃ actions, (∃ history, RunOf anyEvent history s) ∧
      Step anyEvent s (packet (link 1) (address 2) (twoWords 101 0) 3) actions t ∧
      ∃ candidate, t.candidates.get? (destination, ⟨link 1, address 2⟩) = some candidate ∧
        candidate.routerId = nodeId 1 := by
  obtain ⟨history, s, run, known, admitted, heeded⟩ := run_of_checked_play anyEvent
    (harness (nodeId 0)) advertisedRoute
    (fun _ (s : Harness) =>
      let m := s.reading HashOrder.stored ⟨link 1, address 2⟩ ⟨twoWords 101 0⟩ 3 (timestampUs 3)
        [routeUpdate destination (address 2) (nodeId 2) 5 0]
      s.neighbours.containsKey ⟨link 1, address 2⟩ = true ∧
        m.admits ⟨link 1, address 2⟩ ⟨destination, nodeId 1, address 2, 1600, 101, 0⟩ = true ∧
        m.ignoresRefresh ⟨link 1, address 2⟩
          ⟨destination, nodeId 1, address 2, 1600, 101, 0⟩ = false)
    rfl (by decide +kernel)
  have handled := tryHandle_valid (packet (link 1) (address 2) (twoWords 101 0) 3) rfl
    HashOrder.stored s
  have counts := (last_word_counts_iff run handled (Or.inr ⟨rfl, rfl⟩) known
    (show twoWords 101 0 = [routeUpdate destination (address 2) (nodeId 2) 5 0] ++
      routeUpdate destination (address 2) (nodeId 1) 101 0 :: [] from rfl) rfl
    (fun _ inside => absurd inside List.not_mem_nil) admitted).mpr fun ignored =>
      Bool.false_ne_true (heeded.symm.trans ignored.1)
  obtain ⟨candidate, found, same, _⟩ := counts
  exact ⟨s, _, _, ⟨history, run⟩, ⟨rfl, _, handled⟩, candidate, found, same⟩

/-- After the other router-id an infeasible Update over the selected route is still
ignored, and the other router-id stays stored. -/
theorem stale_selection_ignores_last_word :
    ∃ (history : List (Event BuiltinProfile × List Action)) (before after : Harness)
        (actions : List Action),
      RunOf anyEvent history before ∧
        Step anyEvent before (packet (link 1) (address 2) (twoWords 100 200) 3) actions after ∧
        before.neighbours.containsKey ⟨link 1, address 2⟩ = true ∧
        (before.reading HashOrder.stored ⟨link 1, address 2⟩ ⟨twoWords 100 200⟩ 3 (timestampUs 3)
          [routeUpdate destination (address 2) (nodeId 2) 5 0]).admits ⟨link 1, address 2⟩
            ⟨destination, nodeId 1, address 2, 1600, 100, 200⟩ = true ∧
        ((after.candidates.get? (destination, ⟨link 1, address 2⟩)).map Candidate.routerId) =
          some (nodeId 2) := by
  exact step_of_checked_play anyEvent
    (harness (nodeId 0)) advertisedRoute (packet (link 1) (address 2) (twoWords 100 200) 3)
    _ rfl (by decide +kernel)

end Concrete

end Engine

end BabelRs
