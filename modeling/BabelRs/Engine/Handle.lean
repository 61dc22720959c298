import BabelRs.Engine.Timers

/-!
# Events

Interface lifecycle of `engine/interfaces.rs`, `engine/policy.rs`, and the event
dispatch of `engine.rs`.
-/

set_option autoImplicit false

namespace BabelRs

open Lib Lib.Effect

namespace Engine

variable {P M : Type} [NeighborMetric M] [MetricProfile P M]

/-! ## Interface lifecycle -/

def defaultInterfacePolicy (engine : Engine P M) : InterfacePolicy P where
  controlTransport := .ipv6
  ipv4NextHop := .auto
  metric := engine.config.metric
  helloIntervalCs := engine.config.helloIntervalCs
  updateIntervalCs := engine.config.updateIntervalCs
  splitHorizon := true

/-- `or_insert`: an interface that is already up keeps its state. -/
def attachInterface (interface : InterfaceName) (localAddresses : List IpAddr)
    (policy : InterfacePolicy P) (now : UInt64) (engine : Engine P M) : Engine P M :=
  if engine.interfaces.containsKey interface then engine
  else
    { engine with
      interfaces := engine.interfaces.insert interface
        { localAddresses := localAddresses
          policy := policy
          helloSeqno := 0
          nextHelloMs := now
          nextUpdateMs := now
          lastFullUpdateMs := none } }

def wildcardRequest (interface : InterfaceName) (state : InterfaceState P) (now : UInt64) : Action :=
  .send interface state.policy.controlTransport.multicast ⟨[.routeRequest none []]⟩
    (SendTiming.urgent now)

def interfaceUp (order : HashOrder) (interface : InterfaceName) (localAddresses : List IpAddr)
    (policy : InterfacePolicy P) (now : UInt64) : Effect (Engine P M) Action :=
  andThen (Effect.update (attachInterface interface localAddresses policy now))
    (andThen (tick order now)
      (emit fun engine =>
        ((engine.interfaces.get? interface).map fun state =>
          wildcardRequest interface state now).toList))

def detachNeighbours (interface : InterfaceName) (engine : Engine P M) : Engine P M :=
  { engine with
    neighbours := engine.neighbours.retain fun key _ => decide (key.interface ≠ interface)
    candidates := engine.candidates.retain fun _ route => decide (route.interface ≠ interface) }

def resetNeighbour (interface : InterfaceName) (policy : InterfacePolicy P) (now : UInt64)
    (key : NeighborKey) (neighbour : Neighbor M) : Neighbor M :=
  let greeted := NeighborMetric.onHello (MetricProfile.newNeighbor policy.metric interface)
    neighbour.histories
  { neighbour with
    metric :=
      match neighbour.lastIhuCost with
      | none => greeted
      | some cost => NeighborMetric.onIhu greeted cost
    nextIhuMs := now
    nextRttProbeMs := (MetricProfile.rttProbeIntervalMs policy.metric).map fun value =>
      initialProbeDeadline now value key
    originTimestamp := none
    receiveTimestamp := none }

/-- Reset the metrics on one interface; reselect when a candidate metric changed. -/
def resetMetrics (order : HashOrder) (interface : InterfaceName) (policy : InterfacePolicy P)
    (now : UInt64) : Effect (Engine P M) Action := fun engine =>
  let reset :=
    { engine with
      neighbours := engine.neighbours.mapValues fun key neighbour =>
        if key.interface = interface then resetNeighbour interface policy now key neighbour
        else neighbour }
  let recomputed := reset.recomputeCandidateMetrics none
  when (fun _ => recomputed.2) (reselect order now) recomputed.1

def installPolicy (interface : InterfaceName) (policy : InterfacePolicy P) (now : UInt64)
    (engine : Engine P M) : Engine P M :=
  { engine with
    interfaces := engine.interfaces.modify interface fun state =>
      { state with
        policy := policy
        nextHelloMs := now
        nextUpdateMs := now
        lastFullUpdateMs := none } }

/-- `interface_policy_changed` up to its concluding tick. -/
def policyChangedBeforeTick (order : HashOrder) (interface : InterfaceName)
    (policy : InterfacePolicy P) (transportChanged resetMetric : Bool) (now : UInt64) :
    Effect (Engine P M) Action :=
  andThen (Effect.update (installPolicy interface policy now))
    (andThen
      (when (fun _ => transportChanged)
        (andThen (Effect.update (detachNeighbours interface)) (reselect order now)))
      (andThen
        (when (fun _ => resetMetric) (resetMetrics order interface policy now))
        (sendUpdates now none (some interface) (some (SendTiming.urgent now)))))

def interfacePolicyChanged (order : HashOrder) (interface : InterfaceName)
    (policy : InterfacePolicy P) (resetMetric : Bool) (now : UInt64) :
    Effect (Engine P M) Action := fun engine =>
  match engine.interfaces.get? interface with
  | none => (engine, [])
  | some state =>
    andThen
      (policyChangedBeforeTick order interface policy
        (state.policy.controlTransport != policy.controlTransport) resetMetric now)
      (tick order now) engine

def setAddresses (interface : InterfaceName) (localAddresses : List IpAddr)
    (engine : Engine P M) : Engine P M :=
  { engine with
    interfaces := engine.interfaces.modify interface fun state =>
      { state with
        localAddresses := localAddresses
        lastFullUpdateMs := none } }

def interfaceAddressesChanged (interface : InterfaceName) (localAddresses : List IpAddr)
    (now : UInt64) : Effect (Engine P M) Action := fun engine =>
  if (engine.interfaces.get? interface).any fun state => state.localAddresses == localAddresses then
    (engine, [])
  else
    andThen (Effect.update (setAddresses interface localAddresses))
      (sendUpdates now none (some interface) (some (SendTiming.urgent now))) engine

def removeInterface (interface : InterfaceName) (engine : Engine P M) : Engine P M :=
  { detachNeighbours interface engine with interfaces := engine.interfaces.remove interface }

def interfaceDown (order : HashOrder) (interface : InterfaceName) (now : UInt64) :
    Effect (Engine P M) Action :=
  andThen (Effect.update (removeInterface interface)) (reselect order now)

/-! ## Policy replacement -/

/-- Install a policy and drop the candidates it rejects, their request slots, and
the retracted candidates. -/
def applyRoutePolicy (policy : RoutePolicy) (engine : Engine P M) : Engine P M :=
  let candidates := engine.candidates.retain fun entry candidate =>
    candidate.advertisedMetric != INFINITY &&
      policy.accept
        { key := candidate.key
          interface := entry.2.interface
          neighbor := entry.2.address
          nextHop := candidate.nextHop
          routerId := candidate.routerId
          seqno := candidate.seqno
          advertisedMetric := candidate.advertisedMetric }
  { engine with
    config := { engine.config with routePolicy := policy }
    candidates := candidates
    neighbours := engine.neighbours.mapValues fun key state =>
      { state with
        candidates := candidates.entries.countP fun entry => decide (entry.1.2 = key) }
    pendingSeqno := engine.pendingSeqno.retain fun entry pending =>
      candidates.containsKey (entry.1, pending.nextHop) }

def announceAll (now : UInt64) (engine : Engine P M) : Engine P M :=
  (engine.originated.keys ++ engine.selected.keys ++ engine.tombstones.keys).foldl
    (fun engine key => engine.repeatAdvertisement key now) engine

def replaceRoutePolicy (order : HashOrder) (policy : RoutePolicy) (now : UInt64) :
    Effect (Engine P M) Action :=
  andThen (Effect.update (applyRoutePolicy policy))
    (andThen (emit fun _ => [.invalidatePendingSends])
      (andThen (reselect order now)
        (andThen (Effect.update (announceAll now))
          (andThen (sendUpdates now none none (some (SendTiming.urgent now)))
            (emit fun engine =>
              engine.interfaces.entries.map fun entry => wildcardRequest entry.1 entry.2 now)))))

/-! ## Local origins -/

/-- Lift a hold on a key that is originated again, reporting it. -/
def liftHold (key : RouteKey) : Effect (Engine P M) Action :=
  when (fun engine => engine.tombstones.containsKey key)
    (andThen
      (Effect.update fun engine => { engine with tombstones := engine.tombstones.remove key })
      routeSnapshot)

def announceBump : Effect (Engine P M) Action :=
  andThen (Effect.update bumpSequenceNumber)
    (emit fun engine => [.sequenceNumberChanged engine.sequenceNumber])

/-- Install an origin with a new metric: a worse one needs a new sequence number. -/
def installOrigin (key : RouteKey) (metric : UInt16) (now : UInt64) : Effect (Engine P M) Action :=
  andThen (liftHold key)
    (andThen (Effect.update (repeatAdvertisement key now))
      (andThen
        (when
          (fun engine => (engine.originated.get? key).any fun origin => decide (metric > origin.metric))
          announceBump)
        (Effect.update fun engine =>
          { engine with
            originated := engine.originated.insert key ⟨metric, engine.sequenceNumber⟩ })))

def setOrigin (order : HashOrder) (key : RouteKey) (metric : UInt16) (now : UInt64) :
    Effect (Engine P M) Action :=
  andThen (installOrigin key metric now)
    (andThen (reselect order now) (sendUpdates now (some key) none none))

def originate (order : HashOrder) (key : RouteKey) (metric : UInt16) (now : UInt64) :
    Effect (Engine P M) Action := fun engine =>
  if (engine.originated.get? key).any fun origin => origin.metric == metric then (engine, [])
  else setOrigin order key metric now engine

/-- Remove an origin; `existed` tells whether there was one to announce. -/
def removeOrigin (order : HashOrder) (key : RouteKey) (existed : Bool) (now : UInt64) :
    Effect (Engine P M) Action :=
  andThen
    (Effect.update fun engine => { engine with originated := engine.originated.remove key })
    (andThen (reselect order now)
      (andThen
        (when (fun engine => existed && !engine.selected.containsKey key)
          (andThen (Effect.update (holdWithdrawal key now)) routeSnapshot))
        (when (fun _ => existed)
          (andThen (Effect.update (repeatAdvertisement key now))
            (sendUpdates now (some key) none (some (SendTiming.urgent now)))))))

def withdraw (order : HashOrder) (key : RouteKey) (now : UInt64) : Effect (Engine P M) Action :=
  fun engine => removeOrigin order key (engine.originated.containsKey key) now engine

/-- Hold and retract one key that left the origin set. -/
def withdrawRemoved (now : UInt64) (key : RouteKey) : Effect (Engine P M) Action :=
  andThen
    (when (fun engine => !engine.selected.containsKey key)
      (Effect.update (holdWithdrawal key now)))
    (andThen (Effect.update (repeatAdvertisement key now))
      (sendUpdates now (some key) none (some (SendTiming.urgent now))))

def originsUnchanged (engine : Engine P M) (origins : OrdMap RouteKey UInt16) : Bool :=
  engine.originated.len == origins.len &&
    origins.entries.all fun entry =>
      (engine.originated.get? entry.1).any fun origin => origin.metric == entry.2

def announceOrigins (now : UInt64) (engine : Engine P M) : Engine P M :=
  engine.originated.keys.foldl
    (fun engine key =>
      repeatAdvertisement key now { engine with tombstones := engine.tombstones.remove key })
    engine

/-- Install a new origin set; `changesExisting` tells whether a kept one got worse. -/
def installOrigins (origins : OrdMap RouteKey UInt16) (changesExisting : Bool) :
    Effect (Engine P M) Action :=
  andThen (when (fun _ => changesExisting) announceBump)
    (Effect.update fun engine =>
      { engine with
        originated := origins.mapValues fun _ metric => ⟨metric, engine.sequenceNumber⟩ })

/-- Reselect with a new origin set and announce it; `removed` are the keys that left. -/
def setOrigins (order : HashOrder) (origins : OrdMap RouteKey UInt16)
    (removed : List RouteKey) (changesExisting : Bool) (now : UInt64) :
    Effect (Engine P M) Action :=
  andThen (installOrigins origins changesExisting)
    (andThen (reselect order now)
      (andThen (forEach removed (withdrawRemoved now))
        (andThen (Effect.update (announceOrigins now))
          (andThen routeSnapshot (sendUpdates now none none none)))))

def replaceOrigins (order : HashOrder) (origins : OrdMap RouteKey UInt16) (now : UInt64) :
    Effect (Engine P M) Action := fun engine =>
  if engine.originsUnchanged origins then (engine, [])
  else
    setOrigins order origins
      (engine.originated.keys.filter fun key => !origins.containsKey key)
      (engine.originated.entries.any fun entry =>
        (origins.get? entry.1).any fun metric => decide (metric > entry.2.metric))
      now engine

/-! ## Dispatch -/

def handleValidated (order : HashOrder) (event : Event P) : Effect (Engine P M) Action :=
  match event with
  | .interfaceUp interface localAddresses now => fun engine =>
    interfaceUp order interface localAddresses engine.defaultInterfacePolicy now engine
  | .interfaceUpWithPolicy interface localAddresses policy now =>
    interfaceUp order interface localAddresses policy now
  | .interfacePolicyChanged interface policy resetMetric now =>
    interfacePolicyChanged order interface policy resetMetric now
  | .interfaceAddressesChanged interface localAddresses now =>
    interfaceAddressesChanged interface localAddresses now
  | .interfaceDown interface now => interfaceDown order interface now
  | .packetReceived interface source packet now =>
    receive order interface source packet now (timestampUs now)
  | .packetReceivedWithTimestamp interface source packet now receivedTimestampUs =>
    receive order interface source packet now receivedTimestampUs
  | .originate key metric now => originate order key metric now
  | .withdraw key now => withdraw order key now
  | .replaceOrigins origins now => replaceOrigins order origins now
  | .replaceRoutePolicy policy now => replaceRoutePolicy order policy now
  | .tick now => tick order now

/-- The lifetime a finite Update gives its key at a neighbour. -/
def advertisedLifetime (timing : SendTiming) (update : OutboundUpdate) : UInt64 :=
  satAdd timing.deadlineMs (update.intervalCs.toUInt64 * 35)

def noteTlv (timing : SendTiming) (table : OrdMap RouteKey UInt64) (tlv : OutboundTlv) :
    OrdMap RouteKey UInt64 :=
  match tlv with
  | .update update =>
    match update.key with
    | some key =>
      if update.metric != INFINITY then
        table.insert key (max ((table.get? key).getD 0) (advertisedLifetime timing update))
      else table
    | none => table
  | _ => table

def noteAction (table : OrdMap RouteKey UInt64) (action : Action) : OrdMap RouteKey UInt64 :=
  match action with
  | .send _ _ packet timing => packet.tlvs.foldl (noteTlv timing) table
  | _ => table

/-- `try_handle`.  The advertised lifetimes are noted once the actions are
complete; an invalid event changes nothing. -/
def tryHandle (order : HashOrder) (event : Event P) (engine : Engine P M) :
    Except ConfigError (Engine P M × List Action) := do
  event.validate
  let result := handleValidated order event engine
  return ({ result.1 with
    advertisedUntil := result.2.foldl noteAction result.1.advertisedUntil }, result.2)

end Engine

end BabelRs
