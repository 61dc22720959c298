import BabelRs.Engine.Output

/-!
# Candidate admission, feasibility and route selection

Models `engine/rib.rs`.
-/

set_option autoImplicit false

namespace BabelRs

open Lib Lib.Effect

/-! ## Pure predicates on destinations, metrics and candidates -/

def forbiddenDestination : IpNet → Bool
  | .v4 address len =>
    match (IpNet.v4 address len).trunc with
    | .v4 network _ =>
      (len.val == 32 && (network == 0 || network == 0x7f000001)) ||
        (len.val ≥ 8 && network >>> 24 == 224)
    | .v6 _ _ => false
  | .v6 address len =>
    match (IpNet.v6 address len).trunc with
    | .v6 network _ =>
      (len.val ≥ 8 && network >>> 120 == 0xff) ||
        (len.val ≥ 64 && network >>> 64 == 0xfe80000000000000)
    | .v4 _ _ => false

/-- A custom algebra cannot make an infinite link reachable or reduce distance. -/
def safeExtend (algebra : MetricAlgebra) (advertised link : UInt16) : UInt16 :=
  if advertised = INFINITY ∨ link = INFINITY ∨ link = 0 then INFINITY
  else
    let result := algebra.extend advertised link
    if result ≤ advertised then INFINITY else result

namespace Candidate

def compareAddress (first second : IpAddr) : Ordering := compare first.code second.code

/-- Lexicographic on metric, router-id, interface and next hop. -/
def order (left right : Candidate) : Ordering :=
  (compare left.metric.toNat right.metric.toNat).then <|
    (compare left.routerId.octets.toNat right.routerId.octets.toNat).then <|
      (compare left.interface right.interface).then <|
        compareAddress left.nextHop right.nextHop

def sameCandidate (left right : Candidate) : Bool :=
  left.routerId == right.routerId && left.nextHop == right.nextHop &&
    left.interface == right.interface

def selected (route : Candidate) : SelectedRoute where
  key := route.key
  routerId := route.routerId
  seqno := route.seqno
  metric := route.metric
  nextHop := route.nextHop
  interface := route.interface

def distance (candidate : Candidate) : Distance := ⟨candidate.seqno, candidate.advertisedMetric⟩

/-- The identity test of route selection: same router-id, next hop and interface. -/
def realises (candidate : Candidate) (route : SelectedRoute) : Bool :=
  route.routerId == candidate.routerId && route.interface == candidate.interface &&
    route.nextHop == candidate.nextHop

/-- `min_by`: the first of the smallest elements. -/
def best (first : Candidate) (rest : List Candidate) : Candidate :=
  rest.foldl (fun least next => if order next least = .lt then next else least) first

end Candidate

def metricImprovementIsSignificant (betterMetric worseMetric : UInt16)
    (policy : RouteSelectionConfig) : Bool :=
  let improvement := worseMetric.toNat - betterMetric.toNat
  let percentage := min ((worseMetric.toNat * policy.switchMarginPercent.toNat + 99) / 100) 0xffff
  improvement ≥ max policy.switchMarginMetric.toNat percentage && improvement > 0

def sufficientlyBetter (candidate current : Candidate) (policy : RouteSelectionConfig) : Bool :=
  metricImprovementIsSignificant candidate.metric current.metric policy

namespace Engine

variable {P M : Type}

def sourceFeasible (engine : Engine P M) (key : RouteKey) (routerId : RouterId)
    (distance : Distance) : Bool :=
  match engine.feasible.get? (key, routerId) with
  | none => true
  | some source => distance.feasibleAgainst source.distance

def candidateIsFeasible (engine : Engine P M) (candidate : Candidate) : Bool :=
  let retainedSelected :=
    match engine.selected.get? candidate.key with
    | none => false
    | some selected => candidate.realises selected
  retainedSelected || engine.sourceFeasible candidate.key candidate.routerId candidate.distance

/-! ## Metric recomputation -/

section Metric
variable [NeighborMetric M]

def recomputedMetric (engine : Engine P M) (only : Option NeighborKey) (neighbour : NeighborKey)
    (candidate : Candidate) : UInt16 :=
  match engine.neighbours.get? neighbour with
  | none => candidate.metric
  | some state =>
    if only.all fun wantedKey => decide (wantedKey = neighbour) then
      safeExtend engine.config.metricAlgebra candidate.advertisedMetric
        (NeighborMetric.linkCost state.metric)
    else candidate.metric

/-- `recompute_candidate_metrics`, with the flag that some metric changed. -/
def recomputeCandidateMetrics (only : Option NeighborKey) (engine : Engine P M) :
    Engine P M × Bool :=
  ({ engine with
      candidates := engine.candidates.mapValues fun entry candidate =>
        { candidate with metric := engine.recomputedMetric only entry.2 candidate } },
    engine.candidates.entries.any fun entry =>
      entry.2.metric != engine.recomputedMetric only entry.1.2 entry.2)

end Metric

/-! ## Route selection -/

/-- The working state of the selection loop of `reselect`. -/
structure Selection where
  next : OrdMap RouteKey SelectedRoute
  pendingSwitches : AssocMap RouteKey PendingSwitch
  settlingSince : AssocMap RouteKey UInt64
  settledRoutes : AssocMap RouteKey Unit

/-- `settled`: whether a key's initial selection has lasted `better_for_ms`. -/
def settle (config : RouteSelectionConfig) (now : UInt64) (key : RouteKey) (state : Selection) :
    Selection × Bool :=
  if state.settledRoutes.containsKey key then (state, true)
  else
    let since := (state.settlingSince.get? key).getD now
    let state := { state with settlingSince := state.settlingSince.insert key since }
    if satSub now since ≥ config.betterForMs then
      ({ state with settledRoutes := state.settledRoutes.insert key () }, true)
    else (state, false)

def freshSwitch (now : UInt64) (best current : Candidate) : PendingSwitch where
  routerId := best.routerId
  nextHop := best.nextHop
  interface := best.interface
  sinceMs := now
  currentPeakMetric := current.metric

/-- The dwell of an established route against a sufficiently better alternate. -/
def dwell (config : RouteSelectionConfig) (now : UInt64) (key : RouteKey)
    (best current : Candidate) (state : Selection) : Selection × Candidate :=
  let pending := (state.pendingSwitches.get? key).getD (freshSwitch now best current)
  let pending :=
    if pending.routerId != best.routerId || pending.nextHop != best.nextHop ||
        pending.interface != best.interface then
      freshSwitch now best current
    else pending
  let pending := { pending with currentPeakMetric := max pending.currentPeakMetric current.metric }
  let recovered := metricImprovementIsSignificant current.metric pending.currentPeakMetric config
  let ready := satSub now pending.sinceMs ≥ config.betterForMs
  if recovered then
    -- The alternate still clears both margins: restart the dwell, keep the entry.
    let pending := { pending with sinceMs := now, currentPeakMetric := current.metric }
    ({ state with pendingSwitches := state.pendingSwitches.insert key pending }, current)
  else if ready then
    ({ state with pendingSwitches := state.pendingSwitches.remove key }, best)
  else ({ state with pendingSwitches := state.pendingSwitches.insert key pending }, current)

/-- Choose among the non-empty feasible routes `first :: rest` of one key. -/
def choose (config : RouteSelectionConfig) (now : UInt64) (before : Option SelectedRoute)
    (key : RouteKey) (first : Candidate) (rest : List Candidate) (state : Selection) :
    Selection × Candidate :=
  let current := before.bind fun selected => (first :: rest).find? fun route => route.realises selected
  let (state, settled) := settle config now key state
  let best := Candidate.best first rest
  match current with
  | some current =>
    if best.sameCandidate current || !sufficientlyBetter best current config then
      ({ state with pendingSwitches := state.pendingSwitches.remove key }, current)
    else if !settled then
      ({ state with
          pendingSwitches := state.pendingSwitches.remove key
          settlingSince := state.settlingSince.insert key now }, best)
    else dwell config now key best current state
  | none =>
    let state := { state with pendingSwitches := state.pendingSwitches.remove key }
    let state :=
      if settled then state
      else { state with settlingSince := state.settlingSince.insert key now }
    (state, best)

def selectGroup (config : RouteSelectionConfig) (now : UInt64)
    (before : OrdMap RouteKey SelectedRoute) (state : Selection)
    (group : RouteKey × List Candidate) : Selection :=
  match group.2 with
  | [] => state
  | first :: rest =>
    let (state, chosen) := choose config now (before.get? group.1) group.1 first rest state
    { state with next := state.next.insert group.1 chosen.selected }

/-- The finite feasible candidates, grouped by key in enumeration order. -/
def grouped (order : HashOrder) (engine : Engine P M) : OrdMap RouteKey (List Candidate) :=
  OrdMap.groupBy Candidate.key
    (((order.iter engine.candidates.entries).map Prod.snd).filter fun route =>
      decide (route.metric < INFINITY) && engine.candidateIsFeasible route)

def selection (order : HashOrder) (now : UInt64) (engine : Engine P M) : Selection :=
  (engine.grouped order).entries.foldl
    (selectGroup engine.config.routeSelection now engine.selected)
    ⟨.empty, engine.pendingSwitches, engine.settlingSince, engine.settledRoutes⟩

/-! ## Withdrawal holds and the selection delta -/

def candidateExpiry (engine : Engine P M) (key : RouteKey) : Option UInt64 :=
  (engine.candidates.entries.filter fun entry => entry.2.key = key).foldl
    (fun latest entry =>
      match latest with
      | none => some entry.2.expiresMs
      | some expiry => some (max expiry entry.2.expiresMs))
    none

def lossDeadline (now : UInt64) (engine : Engine P M) (key : RouteKey) : UInt64 :=
  max (max ((engine.candidateExpiry key).getD now)
      (satAdd now (engine.longestUpdateInterval.toUInt64 * 35)))
    ((engine.advertisedUntil.get? key).getD 0)

def holdLost (now : UInt64) (removed : List RouteKey) (engine : Engine P M) : Engine P M :=
  { engine with
    tombstones := removed.foldl
      (fun holds key => holds.insert key (engine.lossDeadline now key)) engine.tombstones }

/-- Keys whose starving candidates can carry a recovery request, with the first
neighbour found for each. -/
def requestTargets (order : HashOrder) (engine : Engine P M)
    (before : OrdMap RouteKey SelectedRoute) : AssocMap RouteKey NeighborKey :=
  (order.iter engine.candidates.entries).foldl
    (fun targets entry =>
      if before.containsKey entry.1.1 && !engine.selected.containsKey entry.1.1 &&
          decide (entry.2.metric < INFINITY) && !engine.candidateIsFeasible entry.2 &&
          !targets.containsKey entry.1.1 then
        targets.insert entry.1.1 entry.1.2
      else targets)
    .empty

/-- Retract one lost key and ask its starving alternate for a new sequence
number.  Each key is visited once, so the source's `remove` is a lookup here. -/
def announceLoss (targets : AssocMap RouteKey NeighborKey) (now : UInt64)
    (entry : RouteKey × SelectedRoute) : Effect (Engine P M) Action := fun engine =>
  if engine.selected.containsKey entry.1 then (engine, [])
  else
    let engine := engine.repeatAdvertisement entry.1 now
    let retraction := engine.sendRetraction entry.1 entry.2.seqno now
    let pendingKey := (entry.1, entry.2.routerId)
    let requestedSeqno :=
      match engine.feasible.get? pendingKey with
      | none => entry.2.seqno + 1
      | some source => source.distance.seqno + 1
    match targets.get? entry.1 with
    | some nextHop =>
      if engine.pendingSeqno.containsKey pendingKey then (engine, retraction)
      else
        let request := originateSeqnoRequest
          { key := entry.1
            routerId := entry.2.routerId
            seqno := requestedSeqno
            hopCount := requestHopCount
            nextHop := nextHop
            requester := none } now engine
        (request.1, retraction ++ request.2)
    | none => (engine, retraction)

/-- A new route, a new origin, or a metric change of 96 or a quarter. -/
def worthAnnouncing (before : Option SelectedRoute) (selected : SelectedRoute) : Bool :=
  match before with
  | none => true
  | some old =>
    let change := max old.metric.toNat selected.metric.toNat -
      min old.metric.toNat selected.metric.toNat
    old.routerId != selected.routerId || change ≥ 96 || change * 4 ≥ max old.metric.toNat 1

def finiteUpdate : OutboundTlv → Bool
  | .update update => update.metric != INFINITY
  | _ => false

def sendsFinite : Action → Bool
  | .send _ _ packet _ => packet.tlvs.any finiteUpdate
  | _ => false

/-- Advertise one changed selected route on every interface.  The source also
restores the urgent timing that `advertise_learned` already set. -/
def announceChange (now : UInt64) (selected : SelectedRoute) : Effect (Engine P M) Action :=
  fun engine =>
  let engine := engine.repeatAdvertisement selected.key now
  let advertisements := engine.advertiseLearned selected now
  let engine :=
    if advertisements.any sendsFinite then
      engine.maintainSource selected.key selected.routerId ⟨selected.seqno, selected.metric⟩ now
    else engine
  (engine, advertisements)

def selectedDelta (order : HashOrder) (before : OrdMap RouteKey SelectedRoute) (now : UInt64) :
    Effect (Engine P M) Action := fun engine =>
  let targets := engine.requestTargets order before
  let changed := (engine.selected.entries.filter fun entry =>
    worthAnnouncing (before.get? entry.1) entry.2).map Prod.snd
  andThen (forEach before.entries (announceLoss targets now))
    (forEach changed (announceChange now)) engine

/-- The state part of `reselect`: new routes, new holds, pruned switch state. -/
def reselectState (order : HashOrder) (now : UInt64) (engine : Engine P M) : Engine P M :=
  let chosen := engine.selection order now
  let before := engine.selected
  let engine :=
    { engine with
      selected := chosen.next
      pendingSwitches := chosen.pendingSwitches
      settlingSince := chosen.settlingSince
      settledRoutes := chosen.settledRoutes
      tombstones := engine.tombstones.retain fun key _ => !chosen.next.containsKey key }
  let engine := engine.holdLost now
    (order.iter (before.keys.filter fun key => !engine.selected.containsKey key))
  { engine with
    pendingSwitches := engine.pendingSwitches.retain fun key _ => engine.selected.containsKey key
    settlingSince := engine.settlingSince.retain fun key _ => engine.selected.containsKey key
    settledRoutes := engine.settledRoutes.retain fun key _ => engine.selected.containsKey key }

def reselect (order : HashOrder) (now : UInt64) : Effect (Engine P M) Action := fun engine =>
  let next := engine.reselectState order now
  if next.selected ≠ engine.selected ∨ next.tombstones.keys ≠ engine.tombstones.keys then
    andThen routeSnapshot (selectedDelta order engine.selected now) next
  else (next, [])

/-! ## Received Updates -/

/-- The outcome of one received Update: state, whether selection inputs changed,
and protocol output. -/
structure UpdateOutcome (P M : Type) where
  engine : Engine P M
  changed : Bool
  actions : List Action

def retractCandidate (candidate : Candidate) : Candidate :=
  { candidate with advertisedMetric := INFINITY, metric := INFINITY }

def notRetracted (candidate : Candidate) : Bool :=
  candidate.advertisedMetric != INFINITY || candidate.metric != INFINITY

def retractAll (neighbour : NeighborKey) (engine : Engine P M) : UpdateOutcome P M where
  engine :=
    { engine with
      candidates := engine.candidates.mapValues fun entry candidate =>
        if entry.2 = neighbour then retractCandidate candidate else candidate }
  changed := engine.candidates.entries.any fun entry =>
    decide (entry.1.2 = neighbour) && notRetracted entry.2
  actions := []

def retractOne (candidateKey : RouteKey × NeighborKey) (engine : Engine P M) : UpdateOutcome P M where
  engine := { engine with candidates := engine.candidates.modify candidateKey retractCandidate }
  changed := (engine.candidates.get? candidateKey).any notRetracted
  actions := []

def rejectByPolicy (candidateKey : RouteKey × NeighborKey) (engine : Engine P M) :
    UpdateOutcome P M :=
  let removed := engine.candidates.containsKey candidateKey
  { engine :=
      if removed then
        { engine with
          candidates := engine.candidates.remove candidateKey
          neighbours := engine.neighbours.modify candidateKey.2 fun state =>
            { state with candidates := state.candidates - 1 } }
      else engine
    changed := removed
    actions := [] }

def rejectByLimit (neighbour : NeighborKey) (perNeighbor : Bool) (engine : Engine P M) :
    UpdateOutcome P M where
  engine :=
    { engine with
      rejections :=
        if perNeighbor then
          { engine.rejections with
            candidatesPerNeighbor := satAdd engine.rejections.candidatesPerNeighbor 1 }
        else
          { engine.rejections with
            candidatesGlobal := satAdd engine.rejections.candidatesGlobal 1 }
      neighbours := engine.neighbours.modify neighbour fun state =>
        { state with rejectedCandidates := satAdd state.rejectedCandidates 1 } }
  changed := false
  actions := []

/-- A finite Update that passed the fixed checks, with its resolved context. -/
structure FiniteUpdate where
  key : RouteKey
  routerId : RouterId
  nextHop : IpAddr
  intervalCs : UInt16
  seqno : UInt16
  advertisedMetric : UInt16

def FiniteUpdate.distance (update : FiniteUpdate) : Distance := ⟨update.seqno, update.advertisedMetric⟩

def refreshesSelected (engine : Engine P M) (neighbour : NeighborKey) (update : FiniteUpdate) :
    Bool :=
  match engine.selected.get? update.key with
  | none => false
  | some selected =>
    selected.routerId == update.routerId && selected.interface == neighbour.interface &&
      selected.nextHop == update.nextHop

def satisfies (update : FiniteUpdate) (pendingKey : RouteKey × RouterId)
    (pending : PendingSeqnoRequest) : Bool :=
  decide (pendingKey.1 = update.key) &&
    (pendingKey.2 != update.routerId || pending.seqno == update.seqno ||
      seqnoGt update.seqno pending.seqno)

def answerPending (update : FiniteUpdate) (metric : UInt16) (now : UInt64)
    (entry : (RouteKey × RouterId) × PendingSeqnoRequest) : Effect (Engine P M) Action :=
  fun engine =>
  let engine := { engine with pendingSeqno := engine.pendingSeqno.remove entry.1 }
  let answered :=
    match entry.2.requester with
    | none => (engine, [])
    | some requester =>
      updateActionToCandidate update.key update.routerId update.seqno metric requester now engine
  ({ answered.1 with
      recentSeqno := answered.1.recentSeqno.insert entry.1
        (entry.2.seqno, satAdd now recentRequestMs) },
    answered.2)

def recoveryRequest (neighbour : NeighborKey) (update : FiniteUpdate) (feasible : Distance)
    (now : UInt64) : Effect (Engine P M) Action :=
  originateSeqnoRequest
    { key := update.key
      routerId := update.routerId
      seqno := feasible.seqno + 1
      hopCount := requestHopCount
      nextHop := neighbour
      requester := none } now

/-- Answer satisfied requests, or ask for a newer sequence number when an
infeasible route could improve the current path (RFC 8966 3.8.2.2). -/
def settleRequests (order : HashOrder) (neighbour : NeighborKey) (update : FiniteUpdate)
    (metric : UInt16) (now : UInt64) : Effect (Engine P M) Action := fun engine =>
  if engine.sourceFeasible update.key update.routerId update.distance then
    forEach
      ((order.iter engine.pendingSeqno.entries).filter fun entry => satisfies update entry.1 entry.2)
      (answerPending update metric now) engine
  else if engine.pendingSeqno.containsKey (update.key, update.routerId) then (engine, [])
  else if (engine.selected.get? update.key).all fun selected => decide (metric < selected.metric) then
    match engine.feasible.get? (update.key, update.routerId) with
    | none => (engine, [])
    | some source => recoveryRequest neighbour update source.distance now engine
  else (engine, [])

def storedCandidate (neighbour : NeighborKey) (update : FiniteUpdate) (metric : UInt16)
    (now : UInt64) : Candidate where
  key := update.key
  routerId := update.routerId
  seqno := update.seqno
  advertisedMetric := update.advertisedMetric
  metric := metric
  nextHop := update.nextHop
  interface := neighbour.interface
  intervalCs := update.intervalCs
  expiresMs := satAdd now (update.intervalCs.toUInt64 * 35)
  refreshRequested := false

def candidateChanges (old : Option Candidate) (update : FiniteUpdate) (metric : UInt16) : Bool :=
  match old with
  | none => true
  | some old =>
    old.routerId != update.routerId || old.seqno != update.seqno || old.metric != metric ||
      old.advertisedMetric != update.advertisedMetric || old.nextHop != update.nextHop

def storeCandidate (neighbour : NeighborKey) (update : FiniteUpdate) (metric : UInt16)
    (now : UInt64) (engine : Engine P M) : Engine P M :=
  let candidateKey := (update.key, neighbour)
  { engine with
    neighbours :=
      if engine.candidates.containsKey candidateKey then engine.neighbours
      else engine.neighbours.modify neighbour fun state =>
        { state with candidates := state.candidates + 1 }
    candidates := engine.candidates.insert candidateKey
      (storedCandidate neighbour update metric now) }

section Receive
variable [NeighborMetric M]

/-- The part of `receive_update` behind admission: feasibility, pending requests
and the candidate table. -/
def admitUpdate (order : HashOrder) (neighbour : NeighborKey) (state : Neighbor M)
    (update : FiniteUpdate) (now : UInt64) (engine : Engine P M) : UpdateOutcome P M :=
  let metric := safeExtend engine.config.metricAlgebra update.advertisedMetric
    (NeighborMetric.linkCost state.metric)
  if metric ≠ INFINITY ∧ metric ≤ update.advertisedMetric then ⟨engine, false, []⟩
  else if !engine.sourceFeasible update.key update.routerId update.distance &&
      engine.refreshesSelected neighbour update then
    match engine.feasible.get? (update.key, update.routerId) with
    | none => ⟨engine, false, []⟩
    | some source =>
      let requested := recoveryRequest neighbour update source.distance now engine
      ⟨requested.1, false, requested.2⟩
  else
    let settled := settleRequests order neighbour update metric now engine
    { engine := settled.1.storeCandidate neighbour update metric now
      changed := candidateChanges (settled.1.candidates.get? (update.key, neighbour)) update metric
      actions := settled.2 }

/-- The admission checks on a finite Update with a resolved context. -/
def receiveFinite (order : HashOrder) (neighbour : NeighborKey) (update : FiniteUpdate)
    (now : UInt64) (engine : Engine P M) : UpdateOutcome P M :=
  if update.routerId = engine.config.routerId then ⟨engine, false, []⟩
  else if update.key.destination.isIpv4 && update.nextHop.isIpv6 && !engine.config.ipv4ViaIpv6 then
    ⟨engine, false, []⟩
  else
    match engine.neighbours.get? neighbour with
    | none => ⟨engine, false, []⟩
    | some state =>
      if !engine.config.routePolicy.accept
          { key := update.key
            interface := neighbour.interface
            neighbor := neighbour.address
            nextHop := update.nextHop
            routerId := update.routerId
            seqno := update.seqno
            advertisedMetric := update.advertisedMetric } then
        engine.rejectByPolicy (update.key, neighbour)
      else
        let isNew := !engine.candidates.containsKey (update.key, neighbour)
        let perNeighbor := decide (state.candidates ≥ engine.config.limits.maxCandidatesPerNeighbor)
        if isNew && (perNeighbor ||
            decide (engine.candidates.len ≥ engine.config.limits.maxCandidates)) then
          engine.rejectByLimit neighbour perNeighbor
        else engine.admitUpdate order neighbour state update now

def receiveUpdate (order : HashOrder) (neighbour : NeighborKey) (update : ResolvedUpdate)
    (now : UInt64) (engine : Engine P M) : UpdateOutcome P M :=
  match update.key with
  | none => if update.metric = INFINITY then engine.retractAll neighbour else ⟨engine, false, []⟩
  | some key =>
    if forbiddenDestination key.destination then ⟨engine, false, []⟩
    else if update.metric = INFINITY then engine.retractOne (key, neighbour)
    else
      match update.routerId, update.nextHop with
      | some routerId, some nextHop =>
        engine.receiveFinite order neighbour
          ⟨key, routerId, nextHop, update.intervalCs, update.seqno, update.metric⟩ now
      | _, _ => ⟨engine, false, []⟩

end Receive

end Engine

end BabelRs
