import BabelRs.Engine.Handle

/-!
# What the engine sends, and what sending leaves alone

The Updates inside a list of actions, the source table they imply, and the part
of the state that no output function touches.
-/

set_option autoImplicit false

namespace BabelRs

open Lib

/-! ## Updates inside actions -/

/-- One Update of a `send` action, with where and when it goes. -/
structure SentUpdate where
  interface : InterfaceName
  destination : IpAddr
  timing : SendTiming
  update : OutboundUpdate
deriving DecidableEq

def updatesOf (tlvs : List OutboundTlv) : List OutboundUpdate :=
  tlvs.filterMap fun tlv =>
    match tlv with
    | .update update => some update
    | _ => none

def sentOn (interface : InterfaceName) (destination : IpAddr) (timing : SendTiming)
    (tlvs : List OutboundTlv) : List SentUpdate :=
  (updatesOf tlvs).map fun update => ⟨interface, destination, timing, update⟩

def Action.sent : Action → List SentUpdate
  | .send interface destination packet timing => sentOn interface destination timing packet.tlvs
  | _ => []

/-- Every Update of an action list, in emission order. -/
def sentUpdates (actions : List Action) : List SentUpdate := actions.flatMap Action.sent

def Action.isSend : Action → Bool
  | .send _ _ _ _ => true
  | _ => false

@[simp] theorem updatesOf_nil : updatesOf [] = [] := rfl

@[simp] theorem updatesOf_append (first second : List OutboundTlv) :
    updatesOf (first ++ second) = updatesOf first ++ updatesOf second := by
  simp [updatesOf]

@[simp] theorem updatesOf_update (update : OutboundUpdate) (rest : List OutboundTlv) :
    updatesOf (.update update :: rest) = update :: updatesOf rest := rfl

@[simp] theorem sentOn_nil (interface : InterfaceName) (destination : IpAddr)
    (timing : SendTiming) : sentOn interface destination timing [] = [] := rfl

@[simp] theorem sentOn_append (interface : InterfaceName) (destination : IpAddr)
    (timing : SendTiming) (first second : List OutboundTlv) :
    sentOn interface destination timing (first ++ second) =
      sentOn interface destination timing first ++ sentOn interface destination timing second := by
  simp [sentOn]

@[simp] theorem sentOn_update (interface : InterfaceName) (destination : IpAddr)
    (timing : SendTiming) (update : OutboundUpdate) :
    sentOn interface destination timing [.update update] =
      [⟨interface, destination, timing, update⟩] := rfl

@[simp] theorem sentUpdates_nil : sentUpdates [] = [] := rfl

@[simp] theorem sentUpdates_append (first second : List Action) :
    sentUpdates (first ++ second) = sentUpdates first ++ sentUpdates second := by
  simp [sentUpdates]

@[simp] theorem sentUpdates_cons (action : Action) (rest : List Action) :
    sentUpdates (action :: rest) = action.sent ++ sentUpdates rest := by
  simp [sentUpdates]

theorem sentUpdates_eq_nil {actions : List Action}
    (silent : ∀ action ∈ actions, action.sent = []) : sentUpdates actions = [] := by
  simpa [sentUpdates] using silent

theorem mem_sentUpdates {sent : SentUpdate} {actions : List Action} :
    sent ∈ sentUpdates actions ↔ ∃ action ∈ actions, sent ∈ action.sent := by
  simp [sentUpdates]

/-! ## Recording -/

/-- The source entry a sent Update leaves behind: none for a retraction. -/
def SourceTable.note (now : UInt64) (table : SourceTable) (sent : SentUpdate) : SourceTable :=
  match sent.update.key, sent.update.routerId with
  | some key, some routerId =>
    if sent.update.metric != INFINITY then
      table.maintain key routerId ⟨sent.update.seqno, sent.update.metric⟩ now
    else table
  | _, _ => table

theorem SourceTable.note_retraction (now : UInt64) (table : SourceTable) {sent : SentUpdate}
    (infinite : sent.update.metric = INFINITY) : table.note now sent = table := by
  unfold SourceTable.note
  split <;> simp [infinite]

/-- Recording one distance twice is recording it once. -/
theorem SourceTable.maintain_maintain (table : SourceTable) (key : RouteKey) (routerId : RouterId)
    (distance : Distance) (now : UInt64) :
    (table.maintain key routerId distance now).maintain key routerId distance now =
      table.maintain key routerId distance now := by
  simp only [SourceTable.maintain, AssocMap.get?_insert_self, Option.getD_some,
    AssocMap.insert_insert]
  congr 2
  split_ifs <;> rfl

namespace Engine

variable {P M : Type}
variable {s t : Engine P M}

/-! ## The frame of output -/

/-- Addresses and policy of every interface: what an advertisement reads. -/
def links (engine : Engine P M) : OrdMap InterfaceName (List IpAddr × InterfacePolicy P) :=
  engine.interfaces.mapValues fun _ state => (state.localAddresses, state.policy)

theorem get?_links (engine : Engine P M) (interface : InterfaceName) :
    engine.links.get? interface =
      (engine.interfaces.get? interface).map fun state => (state.localAddresses, state.policy) := by
  simp [links]

/-- A change of an interface's timers is no change of its link. -/
theorem links_modify (engine : Engine P M) (interface : InterfaceName)
    (f : InterfaceState P → InterfaceState P)
    (same : ∀ state, (f state).localAddresses = state.localAddresses ∧
      (f state).policy = state.policy) :
    ({ engine with interfaces := engine.interfaces.modify interface f } : Engine P M).links =
      engine.links := by
  refine OrdMap.ext_get? fun name => ?_
  rw [get?_links, get?_links, OrdMap.get?_modify]
  cases engine.interfaces.get? name with
  | none => rfl
  | some state =>
    by_cases here : name = interface
    · simp [here, same state]
    · simp [here]

def metricOf (engine : Engine P M) (key : NeighborKey) : Option M :=
  (engine.neighbours.get? key).map Neighbor.metric

/-- A neighbour as the other party of an adjacency: all but the schedule of what is
sent to it. -/
def adjacency (engine : Engine P M) (key : NeighborKey) : Option (Neighbor M) :=
  (engine.neighbours.get? key).map fun neighbour =>
    { neighbour with nextIhuMs := 0, nextRttProbeMs := none, unicastHelloSeqno := 0 }

theorem metricOf_adjacency (engine : Engine P M) (key : NeighborKey) :
    engine.metricOf key = (engine.adjacency key).map Neighbor.metric := by
  rw [metricOf, adjacency, Option.map_map]
  rfl

/-- What a call of `reselect` leaves to the next one. -/
def switching (s : Engine P M) : RouteSelectionConfig × OrdMap RouteKey SelectedRoute ×
    AssocMap RouteKey PendingSwitch × AssocMap RouteKey UInt64 × AssocMap RouteKey Unit :=
  (s.config.routeSelection, s.selected, s.pendingSwitches, s.settlingSince, s.settledRoutes)

/-- The part of the state that receiving one Update leaves alone. -/
structure Frame (s t : Engine P M) : Prop where
  config : t.config = s.config
  links : t.links = s.links
  adjacencies : ∀ key, t.adjacency key = s.adjacency key
  originated : t.originated = s.originated
  selected : t.selected = s.selected
  tombstones : t.tombstones = s.tombstones
  advertisedUntil : t.advertisedUntil = s.advertisedUntil
  generation : t.generation = s.generation
  sequenceNumber : t.sequenceNumber = s.sequenceNumber
  switching : t.switching = s.switching

/-- The part of the state that output leaves alone. -/
structure Quiet (s t : Engine P M) : Prop extends Frame s t where
  candidates : t.candidates = s.candidates

theorem Frame.refl (s : Engine P M) : Frame s s :=
  ⟨rfl, rfl, fun _ => rfl, rfl, rfl, rfl, rfl, rfl, rfl, rfl⟩

theorem Frame.trans {middle : Engine P M} (first : Frame s middle) (second : Frame middle t) :
    Frame s t where
  config := second.config.trans first.config
  links := second.links.trans first.links
  adjacencies := fun key => (second.adjacencies key).trans (first.adjacencies key)
  originated := second.originated.trans first.originated
  selected := second.selected.trans first.selected
  tombstones := second.tombstones.trans first.tombstones
  advertisedUntil := second.advertisedUntil.trans first.advertisedUntil
  generation := second.generation.trans first.generation
  sequenceNumber := second.sequenceNumber.trans first.sequenceNumber
  switching := second.switching.trans first.switching

theorem Frame.symm (frame : Frame s t) : Frame t s where
  config := frame.config.symm
  links := frame.links.symm
  adjacencies := fun key => (frame.adjacencies key).symm
  originated := frame.originated.symm
  selected := frame.selected.symm
  tombstones := frame.tombstones.symm
  advertisedUntil := frame.advertisedUntil.symm
  generation := frame.generation.symm
  sequenceNumber := frame.sequenceNumber.symm
  switching := frame.switching.symm

theorem Frame.metrics (frame : Frame s t) (key : NeighborKey) :
    t.metricOf key = s.metricOf key := by
  rw [metricOf_adjacency, metricOf_adjacency, frame.adjacencies]

theorem Quiet.refl (s : Engine P M) : Quiet s s := ⟨Frame.refl s, rfl⟩

theorem Quiet.trans {middle : Engine P M} (first : Quiet s middle) (second : Quiet middle t) :
    Quiet s t :=
  ⟨first.toFrame.trans second.toFrame, second.candidates.trans first.candidates⟩

theorem quiet_maintainSource (key : RouteKey) (routerId : RouterId) (distance : Distance)
    (now : UInt64) (engine : Engine P M) :
    Quiet engine (engine.maintainSource key routerId distance now) :=
  ⟨⟨rfl, rfl, fun _ => rfl, rfl, rfl, rfl, rfl, rfl, rfl, rfl⟩, rfl⟩

section Advertisement
variable (engine : Engine P M) (interface : InterfaceName) (key : RouteKey) (routerId : RouterId)
  (seqno metric : UInt16)

theorem ipv4NextHopPolicy_eq :
    engine.ipv4NextHopPolicy interface =
      match engine.links.get? interface with
      | none => .auto
      | some link => link.2.ipv4NextHop := by
  rw [get?_links, ipv4NextHopPolicy]
  cases engine.interfaces.get? interface <;> rfl

theorem controlTransportOf_eq :
    engine.controlTransportOf interface =
      match engine.links.get? interface with
      | none => .ipv6
      | some link => link.2.controlTransport := by
  rw [get?_links, controlTransportOf]
  cases engine.interfaces.get? interface <;> rfl

theorem localIpv4_eq :
    engine.localIpv4 interface =
      (engine.links.get? interface).bind fun link =>
        (engine.ipv4NextHopPolicy interface).ipv4Address link.1 := by
  rw [get?_links, localIpv4]
  cases engine.interfaces.get? interface <;> rfl

theorem localLinkLocal_eq :
    engine.localLinkLocal interface =
      (engine.links.get? interface).bind fun link => link.1.findSome? linkLocalIpv6 := by
  rw [get?_links, localLinkLocal]
  cases engine.interfaces.get? interface <;> rfl

theorem interfaceUpdateInterval_eq :
    engine.interfaceUpdateInterval interface =
      match engine.links.get? interface with
      | none => engine.config.updateIntervalCs
      | some link => link.2.updateIntervalCs := by
  rw [get?_links, interfaceUpdateInterval]
  cases engine.interfaces.get? interface <;> rfl

theorem hops_congr (links : t.links = s.links) (interface : InterfaceName) :
    t.ipv4NextHopPolicy interface = s.ipv4NextHopPolicy interface ∧
      t.localIpv4 interface = s.localIpv4 interface ∧
      t.controlTransportOf interface = s.controlTransportOf interface ∧
      t.localLinkLocal interface = s.localLinkLocal interface := by
  simp only [localIpv4_eq, ipv4NextHopPolicy_eq, controlTransportOf_eq, localLinkLocal_eq, links,
    and_self]

theorem unavailable_congr (config : t.config = s.config) (links : t.links = s.links)
    (interface : InterfaceName) (key : RouteKey) :
    t.unavailable interface key = s.unavailable interface key := by
  obtain ⟨policyEq, ipv4Eq, transportEq, linkLocalEq⟩ := hops_congr links interface
  simp only [unavailable, policyEq, ipv4Eq, transportEq, linkLocalEq, config]

theorem denied_congr (config : t.config = s.config) (interface : InterfaceName) (key : RouteKey)
    (routerId : RouterId) :
    t.denied interface key routerId = s.denied interface key routerId := by
  simp only [denied, config]

/-- An advertisement is read off the links and the configuration. -/
theorem advertisement_congr (config : t.config = s.config) (links : t.links = s.links)
    (interface : InterfaceName) (key : RouteKey) (routerId : RouterId) (seqno metric : UInt16) :
    t.advertisement interface key routerId seqno metric =
      s.advertisement interface key routerId seqno metric := by
  obtain ⟨policyEq, ipv4Eq, transportEq, linkLocalEq⟩ := hops_congr links interface
  have intervalEq : t.interfaceUpdateInterval interface = s.interfaceUpdateInterval interface := by
    rw [interfaceUpdateInterval_eq, interfaceUpdateInterval_eq, links, config]
  simp only [advertisement, unavailable_congr config links, denied_congr config, ipv4Eq,
    transportEq, linkLocalEq, intervalEq]

@[simp] theorem advertisement_key :
    (engine.advertisement interface key routerId seqno metric).key = some key := rfl

@[simp] theorem advertisement_routerId :
    (engine.advertisement interface key routerId seqno metric).routerId = some routerId := rfl

@[simp] theorem advertisement_seqno :
    (engine.advertisement interface key routerId seqno metric).seqno = seqno := rfl

theorem advertisement_metric :
    (engine.advertisement interface key routerId seqno metric).metric =
      if engine.unavailable interface key ||
          (metric != INFINITY && engine.denied interface key routerId)
      then INFINITY else metric := rfl

/-- An advertisement that stayed finite carries the metric it was given. -/
theorem advertisement_metric_of_finite {engine : Engine P M} {interface : InterfaceName}
    {key : RouteKey} {routerId : RouterId} {seqno metric : UInt16}
    (finite : (engine.advertisement interface key routerId seqno metric).metric ≠ INFINITY) :
    (engine.advertisement interface key routerId seqno metric).metric = metric := by
  rw [advertisement_metric] at finite ⊢
  split_ifs at finite ⊢
  · exact absurd rfl finite
  · rfl

theorem advertisement_infinity :
    (engine.advertisement interface key routerId seqno INFINITY).metric = INFINITY := by
  rw [advertisement_metric]
  split_ifs <;> rfl

end Advertisement

end Engine

end BabelRs
