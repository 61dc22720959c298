import BabelRs.Engine.Neighbors

/-!
# Periodic output and expiration

`tick` of `engine/timers.rs`, cut at its loops.  Everything up to the
garbage collection of holds and sources is silent; output starts with
reselection.
-/

set_option autoImplicit false

namespace BabelRs

open Lib Lib.Effect

namespace Neighbor

variable {M : Type} [NeighborMetric M]

/-- Advance both Hello timers, with the flag that the receive cost changed. -/
def age (now : UInt64) (neighbour : Neighbor M) : Neighbor M × Bool :=
  let previousReceiveCost := NeighborMetric.receiveCost neighbour.metric
  let multicast := advanceHelloTimer now neighbour.multicastTimer neighbour.histories.multicast
  let unicast := advanceHelloTimer now neighbour.unicastTimer neighbour.histories.unicast
  let histories : HelloHistories := ⟨multicast.2, unicast.2⟩
  let metric := NeighborMetric.onHello neighbour.metric histories
  let changed := NeighborMetric.receiveCost metric != previousReceiveCost
  ({ neighbour with
      multicastTimer := multicast.1
      unicastTimer := unicast.1
      histories := histories
      metric := metric
      nextIhuMs := if changed then now else neighbour.nextIhuMs },
    changed)

def silent (neighbour : Neighbor M) : Bool :=
  neighbour.histories.multicast.isEmpty && neighbour.histories.unicast.isEmpty

def ihuOverdue (now : UInt64) (neighbour : Neighbor M) : Bool :=
  neighbour.lastIhuMs.any fun last =>
    decide (now > satAdd last (neighbour.ihuIntervalCs.toUInt64 * 35))

def loseIhu (neighbour : Neighbor M) : Neighbor M :=
  { neighbour with
    lastIhuMs := none
    lastIhuCost := none
    metric := NeighborMetric.onIhu neighbour.metric INFINITY }

end Neighbor

namespace Engine

variable {P M : Type} [NeighborMetric M] [MetricProfile P M]

/-! ## Silent expiry -/

/-- Hello timers of every neighbour, with the neighbours whose receive cost changed. -/
def ageNeighbours (now : UInt64) (engine : Engine P M) : Engine P M × List NeighborKey :=
  ({ engine with neighbours := engine.neighbours.mapValues fun _ state => (state.age now).1 },
    (engine.neighbours.entries.filter fun entry => (entry.2.age now).2).map Prod.fst)

def dropSilentNeighbours (engine : Engine P M) : Engine P M × Bool :=
  ({ engine with
      neighbours := engine.neighbours.retain fun _ state => !state.silent
      candidates := engine.candidates.retain fun entry _ =>
        !(engine.neighbours.get? entry.2).any Neighbor.silent },
    engine.neighbours.entries.any fun entry => entry.2.silent)

/-- Forget overdue IHUs, with the neighbours that lost one. -/
def expireIhus (now : UInt64) (engine : Engine P M) : Engine P M × List NeighborKey :=
  ({ engine with
      neighbours := engine.neighbours.mapValues fun _ state =>
        if state.ihuOverdue now then state.loseIhu else state },
    (engine.neighbours.entries.filter fun entry => entry.2.ihuOverdue now).map Prod.fst)

def expiredCandidate (now : UInt64) (candidate : Candidate) : Bool := decide (candidate.expiresMs < now)

/-- An expired candidate is first retracted and, once expired again, removed. -/
def expireCandidates (now : UInt64) (engine : Engine P M) : Engine P M × Bool :=
  let dropped := fun candidate : Candidate =>
    expiredCandidate now candidate && candidate.metric == INFINITY
  ({ engine with
      candidates := (engine.candidates.retain fun _ candidate => !dropped candidate).mapValues
        fun _ candidate =>
          if expiredCandidate now candidate then
            { retractCandidate candidate with
              expiresMs := satAdd now (satMul candidate.intervalCs.toUInt64 35) }
          else candidate
      neighbours := engine.neighbours.mapValues fun key state =>
        { state with
          candidates := state.candidates -
            engine.candidates.entries.countP fun entry =>
              decide (entry.1.2 = key) && dropped entry.2 } },
    engine.candidates.entries.any fun entry => expiredCandidate now entry.2)

/-- A selected candidate close to its expiry that has not been asked for yet. -/
def refreshDue (now : UInt64) (engine : Engine P M) (key : RouteKey) (candidate : Candidate) : Bool :=
  let refreshMargin := satMul candidate.intervalCs.toUInt64 10
  ((engine.selected.get? key).any fun route => candidate.realises route) &&
    decide (candidate.metric < INFINITY) && !candidate.refreshRequested &&
    decide (satAdd now refreshMargin ≥ candidate.expiresMs)

/-- Mark the candidates to refresh, with the route requests asking for them. -/
def requestRefreshes (order : HashOrder) (now : UInt64) (engine : Engine P M) :
    Engine P M × List Action :=
  ({ engine with
      candidates := engine.candidates.mapValues fun entry candidate =>
        if engine.refreshDue now entry.1 candidate then { candidate with refreshRequested := true }
        else candidate },
    ((order.iter engine.candidates.entries).filter fun entry =>
        engine.refreshDue now entry.1.1 entry.2).map fun entry =>
      .send entry.1.2.interface entry.1.2.address ⟨[.routeRequest (some entry.1.1) []]⟩
        (SendTiming.triggered now (engine.interfaceHelloInterval entry.1.2.interface)))

/-- Garbage collection of holds, advertised lifetimes, sources and recent requests. -/
def collectExpired (now : UInt64) (engine : Engine P M) : Engine P M :=
  { engine with
    tombstones := engine.tombstones.retain fun _ expires => decide (expires ≥ now)
    advertisedUntil := engine.advertisedUntil.retain fun _ until_ => decide (until_ ≥ now)
    feasible := engine.feasible.retain fun _ source => decide (source.expiresMs ≥ now)
    recentSeqno := engine.recentSeqno.retain fun _ recent => decide (recent.2 ≥ now) }

def recomputeEach (keys : List NeighborKey) (engine : Engine P M) : Engine P M × Bool :=
  keys.foldl
    (fun state key =>
      let recomputed := state.1.recomputeCandidateMetrics (some key)
      (recomputed.1, state.2 || recomputed.2))
    (engine, false)

/-- What the silent half of `tick` hands to the sending half. -/
structure Aged (P M : Type) where
  engine : Engine P M
  routesMayHaveChanged : Bool
  refreshActions : List Action

def ageState (order : HashOrder) (now : UInt64) (engine : Engine P M) : Aged P M :=
  let aged := engine.ageNeighbours now
  let dropped := aged.1.dropSilentNeighbours
  let unheard := dropped.1.expireIhus now
  let expired := unheard.1.expireCandidates now
  let refreshed := expired.1.requestRefreshes order now
  let collected := refreshed.1.collectExpired now
  let recomputed := collected.recomputeEach (aged.2 ++ unheard.2)
  { engine := recomputed.1
    routesMayHaveChanged := dropped.2 || expired.2 ||
      refreshed.1.tombstones.len != collected.tombstones.len ||
      collected.feasible.len != refreshed.1.feasible.len || recomputed.2
    refreshActions := refreshed.2 }

/-! ## Sending -/

def isRoutesChanged : Action → Bool
  | .routesChanged _ _ _ => true
  | _ => false

/-- Reselection of a tick, followed by the snapshot that reports expired holds
when reselection did not; `holds` is their number before the tick. -/
def tickRoutes (order : HashOrder) (now : UInt64) (holds : Nat) (routesMayHaveChanged : Bool) :
    Effect (Engine P M) Action := fun engine =>
  let selected := when
    (fun engine => routesMayHaveChanged || !engine.pendingSwitches.entries.isEmpty)
    (reselect order now) engine
  if holds != selected.1.tombstones.len && !selected.2.any isRoutesChanged then
    let reported := routeSnapshot selected.1
    (reported.1, selected.2 ++ reported.2)
  else selected

/-- Retry one due request, or give it up after its last retry. -/
def retryRequest (now : UInt64) (entry : (RouteKey × RouterId) × PendingSeqnoRequest) :
    Effect (Engine P M) Action := fun engine =>
  if entry.2.retriesLeft = 0 then
    ({ engine with
        pendingSeqno := engine.pendingSeqno.remove entry.1
        recentSeqno := engine.recentSeqno.insert entry.1
          (entry.2.seqno, satAdd now recentRequestMs) }, [])
  else
    ({ engine with
        pendingSeqno := engine.pendingSeqno.modify entry.1 fun value =>
          let attempt := requestRetries.toNat - value.retriesLeft.toNat
          { value with
            retriesLeft := value.retriesLeft - 1
            nextRetryMs := satAdd now (satMul requestRetryInitialMs (1 <<< UInt64.ofNat (attempt + 1))) } },
      [seqnoRequestAction entry.1.1 entry.1.2 entry.2.seqno entry.2.hopCount entry.2.nextHop now])

def retryRequests (order : HashOrder) (now : UInt64) : Effect (Engine P M) Action := fun engine =>
  forEach
    ((order.iter engine.pendingSeqno.entries).filter fun entry => decide (now ≥ entry.2.nextRetryMs))
    (retryRequest now) engine

def sendRepeat (now : UInt64) (entry : RouteKey × (UInt64 × Nat)) : Effect (Engine P M) Action :=
  andThen
    (Effect.update fun engine =>
      { engine with pendingAdvertisements := engine.pendingAdvertisements.remove entry.1 })
    (andThen (sendUpdates now (some entry.1) none (some (SendTiming.urgent now)))
      (Effect.update fun engine =>
        if entry.2.2 > 1 then
          { engine with
            pendingAdvertisements := engine.pendingAdvertisements.insert entry.1
              (satAdd now 1000, entry.2.2 - 1) }
        else engine))

def sendRepeats (now : UInt64) : Effect (Engine P M) Action := fun engine =>
  forEach
    (engine.pendingAdvertisements.entries.filter fun entry => decide (now ≥ entry.2.1))
    (sendRepeat now) engine

/-- IHUs in their periodic window, then at most 32 due RTT probes. -/
def dueIhus (order : HashOrder) (now : UInt64) (engine : Engine P M) :
    List (NeighborKey × Option UInt64) :=
  let neighbours := order.iter engine.neighbours.entries
  let regular := fun state : Neighbor M => periodicWindowOpen now state.nextIhuMs
  ((neighbours.filter fun entry => regular entry.2).map fun entry =>
      (entry.1, some entry.2.nextIhuMs)) ++
    (((neighbours.filter fun entry =>
        !regular entry.2 && entry.2.nextRttProbeMs.any fun deadline => decide (now ≥ deadline)).map
      fun entry => (entry.1, none)).take maxRttProbesPerTick)

def sendIhus (order : HashOrder) (now : UInt64) : Effect (Engine P M) Action := fun engine =>
  forEach (engine.dueIhus order now) (fun due => ihuAction due.1 now due.2) engine

def periodicHello (now : UInt64) (interface : InterfaceName) : Effect (Engine P M) Action :=
  fun engine =>
  match engine.interfaces.get? interface with
  | none => (engine, [])
  | some state =>
    if periodicWindowOpen now state.nextHelloMs then
      let seqno := state.helloSeqno + 1
      let subTlvs : List SubTlv :=
        if MetricProfile.timestampsEnabled state.policy.metric then
          [.timestampHello (timestampUs now)]
        else []
      ({ engine with
          interfaces := engine.interfaces.modify interface fun state =>
            { state with
              helloSeqno := seqno
              nextHelloMs := nextPeriodicDeadline state.nextHelloMs now state.policy.helloIntervalCs } },
        [.send interface state.policy.controlTransport.multicast
          ⟨[.hello false seqno state.policy.helloIntervalCs subTlvs]⟩
          (SendTiming.byDeadline now state.nextHelloMs)])
    else (engine, [])

def periodicUpdate (now : UInt64) (interface : InterfaceName) : Effect (Engine P M) Action :=
  fun engine =>
  match engine.interfaces.get? interface with
  | none => (engine, [])
  | some state =>
    if periodicWindowOpen now state.nextUpdateMs then
      sendUpdates now none (some interface) (some (SendTiming.byDeadline now state.nextUpdateMs))
        { engine with
          interfaces := engine.interfaces.modify interface fun state =>
            { state with
              nextUpdateMs :=
                nextPeriodicDeadline state.nextUpdateMs now state.policy.updateIntervalCs } }
    else (engine, [])

def periodicOutput (now : UInt64) : Effect (Engine P M) Action := fun engine =>
  forEach engine.interfaces.keys
    (fun interface => andThen (periodicHello now interface) (periodicUpdate now interface))
    engine

def tick (order : HashOrder) (now : UInt64) : Effect (Engine P M) Action := fun engine =>
  let aged := engine.ageState order now
  andThen (tickRoutes order now engine.tombstones.len aged.routesMayHaveChanged)
    (andThen (emit fun _ => aged.refreshActions)
      (andThen (retryRequests order now)
        (andThen (sendRepeats now)
          (andThen (sendIhus order now) (periodicOutput now)))))
    aged.engine

end Engine

end BabelRs
