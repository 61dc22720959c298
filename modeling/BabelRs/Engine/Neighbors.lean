import BabelRs.Engine.Requests
import BabelRs.Engine.Probes

/-!
# Neighbor observations, received packets and IHU output

Models `engine/neighbors.rs`.
-/

set_option autoImplicit false

namespace BabelRs

open Lib Lib.Effect

def validCost (cost : UInt16) : UInt16 := if cost = 0 then INFINITY else cost

def ihuApplies (address : Option IpAddr) (localAddresses : List IpAddr) : Bool :=
  address.all fun value => localAddresses.isEmpty || localAddresses.contains value

def timestampHello (subTlvs : List SubTlv) : Option UInt32 :=
  subTlvs.findSome? fun value =>
    match value with
    | .timestampHello timestamp => some timestamp
    | _ => none

def timestampIhu (subTlvs : List SubTlv) : Option (UInt32 × UInt32) :=
  subTlvs.findSome? fun value =>
    match value with
    | .timestampIhu origin received => some (origin, received)
    | _ => none

def maxSampleAgeUs : UInt32 := 180000000

def validRttSample (now origin peerSent peerReceived : UInt32) : Option UInt32 :=
  let elapsed := now - origin
  let peerDelay := peerSent - peerReceived
  if elapsed ≤ maxSampleAgeUs ∧ peerDelay ≤ maxSampleAgeUs ∧ elapsed ≥ peerDelay then
    some (elapsed - peerDelay)
  else none

namespace Packet

def hasHello (packet : Packet) : Bool :=
  packet.tlvs.any fun tlv =>
    match tlv with
    | .hello _ _ _ _ => true
    | _ => false

/-- The RTT sample of a timestamped Hello together with an echoing IHU. -/
def rttSample (packet : Packet) (localAddresses : List IpAddr) (receiveTimestamp : UInt32) :
    Option UInt32 := do
  let peerSent ← packet.tlvs.findSome? fun tlv =>
    match tlv with
    | .hello _ _ _ subTlvs => timestampHello subTlvs
    | _ => none
  let (origin, peerReceived) ← packet.tlvs.findSome? fun tlv =>
    match tlv with
    | .ihu address _ _ subTlvs =>
      if ihuApplies address localAddresses then timestampIhu subTlvs else none
    | _ => none
  validRttSample receiveTimestamp origin peerSent peerReceived

end Packet

namespace Neighbor

variable {P M : Type} [NeighborMetric M] [MetricProfile P M]

def fresh (profile : P) (key : NeighborKey) (helloIntervalCs : UInt16) (now : UInt64) :
    Neighbor M where
  candidates := 0
  rejectedCandidates := 0
  lastHelloMs := now
  histories := HelloHistories.default
  multicastTimer := none
  unicastTimer := none
  lastIhuMs := none
  lastIhuCost := none
  ihuIntervalCs := satMul16 helloIntervalCs 3
  nextIhuMs := now
  nextRttProbeMs := (MetricProfile.rttProbeIntervalMs profile).map fun interval =>
    initialProbeDeadline now interval key
  originTimestamp := none
  receiveTimestamp := none
  unicastHelloSeqno := 0
  metric := MetricProfile.newNeighbor profile key.interface

def recordHello (neighbour : Neighbor M) (unicast : Bool) (seqno : UInt16) : Neighbor M × Bool :=
  if unicast then
    let recorded := neighbour.histories.unicast.record seqno
    ({ neighbour with histories := { neighbour.histories with unicast := recorded.1 } }, recorded.2)
  else
    let recorded := neighbour.histories.multicast.record seqno
    ({ neighbour with histories := { neighbour.histories with multicast := recorded.1 } },
      recorded.2)

/-- A restarted neighbour keeps its candidates but no observation but this Hello. -/
def restart (profile : P) (key : NeighborKey) (unicast : Bool) (seqno : UInt16) (now : UInt64)
    (neighbour : Neighbor M) : Neighbor M :=
  let first := (HelloHistory.default.record seqno).1
  { neighbour with
    histories :=
      if unicast then { HelloHistories.default with unicast := first }
      else { HelloHistories.default with multicast := first }
    multicastTimer := none
    unicastTimer := none
    lastIhuMs := none
    lastIhuCost := none
    nextIhuMs := now
    nextRttProbeMs := (MetricProfile.rttProbeIntervalMs profile).map fun interval =>
      initialProbeDeadline now interval key
    originTimestamp := none
    receiveTimestamp := none
    unicastHelloSeqno := 0
    metric := MetricProfile.newNeighbor profile key.interface }

def armHelloTimer (unicast : Bool) (intervalCs : UInt16) (now : UInt64) (neighbour : Neighbor M) :
    Neighbor M :=
  let timer : HelloTimer := ⟨intervalCs, satAdd now (satMul intervalCs.toUInt64 15)⟩
  if intervalCs = 0 then neighbour
  else if unicast then { neighbour with unicastTimer := some timer }
  else { neighbour with multicastTimer := some timer }

/-- One Hello TLV, with the flag that an IHU is due. -/
def onHelloTlv (profile : P) (key : NeighborKey) (helloIntervalCs : UInt16)
    (receiveTimestamp : UInt32) (now : UInt64) (unicast : Bool) (seqno intervalCs : UInt16)
    (subTlvs : List SubTlv) (existing : Option (Neighbor M)) : Neighbor M × Bool :=
  let neighbour := existing.getD (fresh profile key helloIntervalCs now)
  let previousReceiveCost := NeighborMetric.receiveCost neighbour.metric
  let recorded :=
    if intervalCs = 0 then (neighbour, false) else neighbour.recordHello unicast seqno
  let neighbour :=
    if recorded.2 then recorded.1.restart profile key unicast seqno now else recorded.1
  let neighbour :=
    { neighbour with
      metric := NeighborMetric.onHello neighbour.metric neighbour.histories
      lastHelloMs := now }
  let neighbour := neighbour.armHelloTimer unicast intervalCs now
  let neighbour :=
    match timestampHello subTlvs with
    | none => neighbour
    | some timestamp =>
      { neighbour with
        originTimestamp := some timestamp
        receiveTimestamp := some receiveTimestamp }
  (neighbour,
    NeighborMetric.receiveCost neighbour.metric != previousReceiveCost ||
      decide (now ≥ neighbour.nextIhuMs) ||
      decide (neighbour.histories.multicast.received 16 < neighbour.histories.multicast.observed))

def onIhuTlv (rxcost intervalCs : UInt16) (now : UInt64) (neighbour : Neighbor M) : Neighbor M :=
  { neighbour with
    metric := NeighborMetric.onIhu neighbour.metric rxcost
    lastIhuMs := some now
    lastIhuCost := some rxcost
    ihuIntervalCs := intervalCs }

end Neighbor

namespace Engine

variable {P M : Type} [NeighborMetric M] [MetricProfile P M]

/-! ## IHU output -/

/-- `ihu_action`: schedule the next IHU and probe of one neighbour and send it. -/
def ihuAction (key : NeighborKey) (now : UInt64) (periodicDeadline : Option UInt64) :
    Effect (Engine P M) Action := fun engine =>
  match engine.interfaces.get? key.interface, engine.neighbours.get? key with
  | some state, some neighbour =>
    let policy := state.policy
    let timestamps := MetricProfile.timestampsEnabled policy.metric
    let echoed := neighbour.originTimestamp.bind fun origin =>
      neighbour.receiveTimestamp.map fun received => (origin, received)
    let intervalCs := satMul16 policy.helloIntervalCs 3
    let sendProbe := neighbour.nextRttProbeMs.any fun deadline => decide (now ≥ deadline)
    let sendHello := sendProbe || (timestamps && echoed.isSome)
    let helloSeqno :=
      if sendHello then neighbour.unicastHelloSeqno + 1 else neighbour.unicastHelloSeqno
    let neighbour :=
      { neighbour with
        nextIhuMs :=
          match periodicDeadline with
          | none => satAdd now (intervalCs.toUInt64 * 10)
          | some deadline => nextPeriodicDeadline deadline now intervalCs
        nextRttProbeMs :=
          if sendProbe then
            (MetricProfile.rttProbeIntervalMs policy.metric).map fun interval =>
              recurringProbeDeadline now interval key helloSeqno
          else neighbour.nextRttProbeMs
        unicastHelloSeqno := helloSeqno }
    let hello : List OutboundTlv :=
      if sendHello then [.hello true helloSeqno 0 [.timestampHello (timestampUs now)]] else []
    let subTlvs : List SubTlv :=
      if timestamps then (echoed.map fun pair => SubTlv.timestampIhu pair.1 pair.2).toList else []
    let ihu : OutboundTlv :=
      .ihu none (validCost (NeighborMetric.receiveCost neighbour.metric)) intervalCs subTlvs
    ({ engine with neighbours := engine.neighbours.insert key neighbour },
      [.send key.interface key.address ⟨hello ++ [ihu]⟩
        (match periodicDeadline with
          | none => SendTiming.triggered now policy.helloIntervalCs
          | some deadline => SendTiming.byDeadline now deadline)])
  | _, _ => (engine, [])

/-! ## Neighbour observations of a packet -/

/-- The Hello loop, with the flag that an IHU is due. -/
def observeHellos (profile : P) (key : NeighborKey) (helloIntervalCs : UInt16)
    (receiveTimestamp : UInt32) (now : UInt64) (tlvs : List Tlv) (engine : Engine P M) :
    Engine P M × Bool :=
  tlvs.foldl
    (fun state tlv =>
      match tlv with
      | .hello unicast seqno intervalCs subTlvs =>
        let observed := Neighbor.onHelloTlv profile key helloIntervalCs receiveTimestamp now unicast
          seqno intervalCs subTlvs (state.1.neighbours.get? key)
        ({ state.1 with neighbours := state.1.neighbours.insert key observed.1 },
          state.2 || observed.2)
      | _ => state)
    (engine, false)

def observeRtt (profile : P) (key : NeighborKey) (sample : Option UInt32) (now : UInt64)
    (engine : Engine P M) : Engine P M :=
  match sample with
  | none => engine
  | some sample =>
    if MetricProfile.timestampsEnabled profile then
      { engine with
        neighbours := engine.neighbours.modify key fun neighbour =>
          { neighbour with metric := NeighborMetric.onRttSample neighbour.metric sample now } }
    else engine

def observeIhus (key : NeighborKey) (localAddresses : List IpAddr) (now : UInt64)
    (tlvs : List Tlv) (engine : Engine P M) : Engine P M :=
  tlvs.foldl
    (fun engine tlv =>
      match tlv with
      | .ihu address rxcost intervalCs _ =>
        if intervalCs ≠ 0 ∧ ihuApplies address localAddresses then
          { engine with
            neighbours := engine.neighbours.modify key (Neighbor.onIhuTlv rxcost intervalCs now) }
        else engine
      | _ => engine)
    engine

def linkCostOf (engine : Engine P M) (key : NeighborKey) : Option UInt16 :=
  (engine.neighbours.get? key).map fun neighbour => NeighborMetric.linkCost neighbour.metric

/-- Hello, RTT and IHU observations, then the candidate metrics they change.
Returns the route-change flag and the flag that an IHU is due. -/
def observe (state : InterfaceState P) (key : NeighborKey) (packet : Packet) (now : UInt64)
    (receiveTimestamp : UInt32) (engine : Engine P M) : Engine P M × Bool × Bool :=
  let profile := state.policy.metric
  let greeted := engine.observeHellos profile key state.policy.helloIntervalCs receiveTimestamp now
    packet.tlvs
  let sampled := greeted.1.observeRtt profile key
    (packet.rttSample state.localAddresses receiveTimestamp) now
  let heard := sampled.observeIhus key state.localAddresses now packet.tlvs
  if engine.linkCostOf key ≠ heard.linkCostOf key then
    let recomputed := heard.recomputeCandidateMetrics (some key)
    (recomputed.1, recomputed.2, greeted.2)
  else (heard, false, greeted.2)

/-! ## Route TLVs of a packet -/

structure ReceiveState (P M : Type) where
  engine : Engine P M
  routesChanged : Bool
  changedRouterIds : AssocMap RouteKey Unit

/-- A finite Update that gives an existing candidate another router-id. -/
def changesRouterId (engine : Engine P M) (neighbour : NeighborKey) (update : ResolvedUpdate) :
    Option RouteKey :=
  match update.key, update.routerId with
  | some key, some routerId =>
    if decide (update.metric < INFINITY) &&
        (engine.candidates.get? (key, neighbour)).any fun candidate =>
          candidate.routerId != routerId then
      some key
    else none
  | _, _ => none

def receiveTlv (order : HashOrder) (neighbour : NeighborKey) (now : UInt64) (tlv : Tlv) :
    Effect (ReceiveState P M) Action := fun state =>
  match tlv with
  | .ackRequest nonce intervalCs =>
    (state, [.send neighbour.interface neighbour.address ⟨[.ack nonce]⟩
      (SendTiming.byDeadline now (satAdd now (intervalCs.toUInt64 * 10)))])
  | .update update =>
    let outcome := state.engine.receiveUpdate order neighbour update now
    ({ engine := outcome.engine
       routesChanged := state.routesChanged || outcome.changed
       changedRouterIds :=
         match state.engine.changesRouterId neighbour update with
         | none => state.changedRouterIds
         | some key => state.changedRouterIds.insert key () },
      outcome.actions)
  | .routeRequest (some key) _ =>
    let reply := replyToRouteRequest key neighbour now state.engine
    ({ state with engine := reply.1, routesChanged := true }, reply.2)
  | .routeRequest none _ =>
    if state.engine.fullUpdateRequestAllowed neighbour.interface now then
      let reply := sendUpdates now none (some neighbour.interface) (some (SendTiming.urgent now))
        state.engine
      ({ state with engine := reply.1, routesChanged := true }, reply.2)
    else ({ state with routesChanged := true }, [])
  | .seqnoRequest key seqno hopCount routerId _ =>
    let reply := handleSeqnoRequest order neighbour key seqno hopCount routerId now state.engine
    ({ state with engine := reply.1, routesChanged := true }, reply.2)
  | _ => (state, [])

/-- RFC 8966 section 3.5.3: a changed Router-ID is announced even when the entry
is not selected. -/
def announceRouterIdChange (now : UInt64) (key : RouteKey) : Effect (Engine P M) Action :=
  fun engine =>
  if engine.originated.containsKey key || engine.selected.containsKey key then
    sendUpdates now (some key) none (some (SendTiming.urgent now)) engine
  else (engine, engine.sendRetraction key engine.sequenceNumber now)

/-- The whole route part of a packet: the TLV loop, reselection when an input
changed, and announcements of changed router-ids. -/
def receiveRoutes (order : HashOrder) (neighbour : NeighborKey) (now : UInt64) (tlvs : List Tlv)
    (routesChanged : Bool) : Effect (Engine P M) Action := fun engine =>
  let processed := forEach tlvs (receiveTlv order neighbour now)
    ⟨engine, routesChanged, .empty⟩
  let finished := andThen
    (when (fun _ => processed.1.routesChanged) (reselect order now))
    (forEach (order.iter processed.1.changedRouterIds.keys) (announceRouterIdChange now))
    processed.1.engine
  (finished.1, processed.2 ++ finished.2)

def receive (order : HashOrder) (interface : InterfaceName) (source : IpAddr) (packet : Packet)
    (now : UInt64) (receiveTimestamp : UInt32) : Effect (Engine P M) Action := fun engine =>
  match engine.interfaces.get? interface with
  | none => (engine, [])
  | some state =>
    -- An old receiver can still have queued packets of the former family.
    if state.policy.controlTransport.multicast.isIpv4 != source.isIpv4 then (engine, [])
    else
      let key : NeighborKey := ⟨interface, source⟩
      if !engine.neighbours.containsKey key &&
          decide (engine.neighbours.len ≥ engine.config.limits.maxNeighbors) && packet.hasHello then
        ({ engine with
            rejections :=
              { engine.rejections with neighbors := satAdd engine.rejections.neighbors 1 } }, [])
      else
        let observed := engine.observe state key packet now receiveTimestamp
        andThen
          (when (fun _ => observed.2.2) (ihuAction key now none))
          (receiveRoutes order key now packet.tlvs observed.2.1) observed.1

end Engine

end BabelRs
