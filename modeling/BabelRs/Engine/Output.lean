import BabelRs.Engine.Sources

/-!
# Semantic route advertisements and retractions

Models `engine/output.rs`.
-/

set_option autoImplicit false

namespace BabelRs

open Lib Lib.Effect

def linkLocalIpv6 : IpAddr → Option (BitVec 128)
  | .v4 _ => none
  | .v6 address => if address >>> 118 = 0x3fa then some address else none

namespace Engine

variable {P M : Type}

/-! ## One advertisement -/

section Advertisement
variable (engine : Engine P M) (interface : InterfaceName)

def ipv4NextHopPolicy : Ipv4NextHop :=
  match engine.interfaces.get? interface with
  | none => .auto
  | some state => state.policy.ipv4NextHop

def controlTransportOf : ControlTransport :=
  match engine.interfaces.get? interface with
  | none => .ipv6
  | some state => state.policy.controlTransport

def localIpv4 : Option (BitVec 32) :=
  (engine.interfaces.get? interface).bind fun state =>
    (engine.ipv4NextHopPolicy interface).ipv4Address state.localAddresses

def localLinkLocal : Option (BitVec 128) :=
  (engine.interfaces.get? interface).bind fun state =>
    state.localAddresses.findSome? linkLocalIpv6

/-- No usable next hop for this destination family on the interface. -/
def unavailable (key : RouteKey) : Bool :=
  let isV4 := key.destination.isIpv4
  let ipv4 := engine.localIpv4 interface
  let needsV6 := !isV4 || ipv4.isNone
  (isV4 && ipv4.isNone && !engine.config.ipv4ViaIpv6) ||
    (isV4 && engine.ipv4NextHopPolicy interface == .ipv4 && ipv4.isNone) ||
    (engine.controlTransportOf interface == .ipv4 && needsV6 &&
      (engine.localLinkLocal interface).isNone)

def denied (key : RouteKey) (routerId : RouterId) : Bool :=
  !engine.config.routePolicy.announce
    { key := key
      interface := interface
      routerId := routerId
      locallyOriginated := routerId == engine.config.routerId }

def advertisement (key : RouteKey) (routerId : RouterId) (seqno metric : UInt16) :
    OutboundUpdate :=
  let isV4 := key.destination.isIpv4
  let ipv4 := engine.localIpv4 interface
  let metric :=
    if engine.unavailable interface key || (metric != INFINITY && engine.denied interface key routerId)
    then INFINITY else metric
  { key := some key
    routerId := some routerId
    seqno := seqno
    metric := metric
    intervalCs := engine.interfaceUpdateInterval interface
    nextHop :=
      if metric = INFINITY then none
      else if isV4 && ipv4.isSome then ipv4.map IpAddr.v4
      else if engine.controlTransportOf interface = .ipv4 then
        (engine.localLinkLocal interface).map IpAddr.v6
      else none
    -- IPv4 retractions retain AE 1, including on an IPv6 control link.
    v4ViaV6 := isV4 && metric != INFINITY && ipv4.isNone
    subTlvs := [] }

end Advertisement

/-! ## Unicast replies -/

def updateActionToCandidate (key : RouteKey) (routerId : RouterId) (seqno metric : UInt16)
    (destination : NeighborKey) (now : UInt64) : Effect (Engine P M) Action := fun engine =>
  let update := engine.advertisement destination.interface key routerId seqno metric
  let engine :=
    if update.metric != INFINITY then
      engine.maintainSource key routerId ⟨seqno, update.metric⟩ now
    else engine
  (engine, [.send destination.interface destination.address ⟨[.update update]⟩
    (SendTiming.urgent now)])

def retractionAction (engine : Engine P M) (key : RouteKey) (seqno : UInt16)
    (destination : NeighborKey) (now : UInt64) : Action :=
  .send destination.interface destination.address
    ⟨[.update
      { key := some key
        routerId := none
        nextHop := none
        intervalCs := engine.interfaceUpdateInterval destination.interface
        seqno := seqno
        metric := INFINITY
        v4ViaV6 := false
        subTlvs := [] }]⟩
    (SendTiming.urgent now)

/-- A specific request is answered even on a split-horizon link; an origin takes
precedence over a learned route. -/
def replyToRouteRequest (key : RouteKey) (destination : NeighborKey) (now : UInt64) :
    Effect (Engine P M) Action := fun engine =>
  match engine.originated.get? key with
  | some origin =>
    updateActionToCandidate key engine.config.routerId origin.seqno origin.metric destination now
      engine
  | none =>
    match engine.selected.get? key with
    | some route =>
      updateActionToCandidate key route.routerId route.seqno route.metric destination now engine
    | none => (engine, [engine.retractionAction key engine.sequenceNumber destination now])

/-! ## Multicast updates -/

def advertiseOrigin (now : UInt64) (interface : InterfaceName) (entry : RouteKey × Originated) :
    Effect (Engine P M) OutboundTlv := fun engine =>
  let update := engine.advertisement interface entry.1 engine.config.routerId entry.2.seqno
    entry.2.metric
  let engine :=
    if update.metric != INFINITY then
      engine.maintainSource entry.1 engine.config.routerId ⟨entry.2.seqno, entry.2.metric⟩ now
    else engine
  (engine, [.update update])

/-- A finite update is withheld from the split-horizon interface it was learned
on, but an earlier unicast reply there may still need a retraction. -/
def advertiseSelected (now : UInt64) (interface : InterfaceName) (splitHorizon : Bool)
    (route : SelectedRoute) : Effect (Engine P M) OutboundTlv := fun engine =>
  let update := engine.advertisement interface route.key route.routerId route.seqno route.metric
  if splitHorizon && route.interface == interface && update.metric != INFINITY then (engine, [])
  else
    let engine :=
      if update.metric != INFINITY then
        engine.maintainSource route.key route.routerId ⟨route.seqno, route.metric⟩ now
      else engine
    (engine, [.update update])

def advertiseTombstone (interface : InterfaceName) (key : RouteKey) :
    Effect (Engine P M) OutboundTlv := fun engine =>
  if !engine.originated.containsKey key && !engine.selected.containsKey key then
    (engine, [.update (engine.advertisement interface key engine.config.routerId
      engine.sequenceNumber INFINITY)])
  else (engine, [])

/-- The three TLV loops of `send_updates` for one interface. -/
def updateTlvs (now : UInt64) (interface : InterfaceName) (splitHorizon : Bool)
    (origins : List (RouteKey × Originated)) (selected : List SelectedRoute)
    (tombstones : List RouteKey) : Effect (Engine P M) OutboundTlv :=
  andThen (forEach origins (advertiseOrigin now interface))
    (andThen (forEach selected (advertiseSelected now interface splitHorizon))
      (forEach tombstones (advertiseTombstone interface)))

def sendUpdatesOn (now : UInt64) (only : Option RouteKey) (timing : Option SendTiming)
    (origins : List (RouteKey × Originated)) (selected : List SelectedRoute)
    (tombstones : List RouteKey) (interface : InterfaceName) : Effect (Engine P M) Action :=
  fun engine =>
  match engine.interfaces.get? interface with
  | none => (engine, [])
  | some state =>
    let sendTiming := timing.getD (SendTiming.triggered now state.policy.helloIntervalCs)
    let result := updateTlvs now interface state.policy.splitHorizon origins selected tombstones
      engine
    if result.2.isEmpty then (result.1, [])
    else
      let engine :=
        if only.isNone then
          { result.1 with
            interfaces := result.1.interfaces.modify interface fun state =>
              { state with lastFullUpdateMs := some now } }
        else result.1
      (engine, [.send interface state.policy.controlTransport.multicast ⟨result.2⟩ sendTiming])

/-- The `only` filter that `send_updates` repeats at every route. -/
def wanted (only : Option RouteKey) (key : RouteKey) : Bool :=
  only.all fun wantedKey => decide (wantedKey = key)

def originsFor (engine : Engine P M) (only : Option RouteKey) : List (RouteKey × Originated) :=
  (match only with
    | some key => (engine.originated.get? key).toList.map fun origin => (key, origin)
    | none => engine.originated.entries).filter fun entry => wanted only entry.1

def selectedFor (engine : Engine P M) (only : Option RouteKey) : List SelectedRoute :=
  (match only with
    | some key => (engine.selected.get? key).toList
    | none => engine.selected.values).filter fun route => wanted only route.key

def tombstonesFor (engine : Engine P M) (only : Option RouteKey) : List RouteKey :=
  (match only with
    | some key => if engine.tombstones.containsKey key then [key] else []
    | none => engine.tombstones.keys).filter (wanted only)

/-- `send_updates`: the routes are read once, before the first interface. -/
def sendUpdates (now : UInt64) (only : Option RouteKey) (interface : Option InterfaceName)
    (timing : Option SendTiming) : Effect (Engine P M) Action := fun engine =>
  forEach
    (match interface with
      | some name => [name]
      | none => engine.interfaces.keys)
    (sendUpdatesOn now only timing (engine.originsFor only) (engine.selectedFor only)
      (engine.tombstonesFor only))
    engine

def fullUpdateRequestAllowed (engine : Engine P M) (interface : InterfaceName) (now : UInt64) :
    Bool :=
  let suppressionMs := (engine.interfaceHelloInterval interface).toUInt64 * 10
  match (engine.interfaces.get? interface).bind fun state => state.lastFullUpdateMs with
  | none => true
  | some last => satSub now last ≥ suppressionMs

def sendRetraction (engine : Engine P M) (key : RouteKey) (seqno : UInt16) (now : UInt64) :
    List Action :=
  engine.interfaces.entries.map fun entry =>
    .send entry.1 entry.2.policy.controlTransport.multicast
      ⟨[.update
        { key := some key
          routerId := some engine.config.routerId
          nextHop := none
          intervalCs := entry.2.policy.updateIntervalCs
          seqno := seqno
          metric := INFINITY
          v4ViaV6 := false
          subTlvs := [] }]⟩
      (SendTiming.urgent now)

/-- `advertise_learned`; its only caller passes the route's own metric and
learned interface. -/
def advertiseLearned (engine : Engine P M) (route : SelectedRoute) (now : UInt64) : List Action :=
  engine.interfaces.entries.filterMap fun entry =>
    let update := engine.advertisement entry.1 route.key route.routerId route.seqno route.metric
    if entry.2.policy.splitHorizon && route.interface == entry.1 && update.metric != INFINITY then
      none
    else
      some (.send entry.1 entry.2.policy.controlTransport.multicast ⟨[.update update]⟩
        (SendTiming.urgent now))

end Engine

end BabelRs
