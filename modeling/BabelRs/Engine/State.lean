import BabelRs.Engine.Api
import BabelRs.Lib.Effect

/-!
# Engine state

The records of `engine.rs`.  Hash tables are `AssocMap`s, ordered maps `OrdMap`s.
`M` is the per-neighbour metric state created by profiles of type `P`.
-/

set_option autoImplicit false

namespace BabelRs

open Lib

def sourceGcTimeMs : UInt64 := 180000
def maxRttProbesPerTick : Nat := 32
def requestRetryInitialMs : UInt64 := 2000
def requestRetries : UInt8 := 3
def requestHopCount : UInt8 := 64
def recentRequestMs : UInt64 := 16000

structure InterfaceState (P : Type) where
  localAddresses : List IpAddr
  policy : InterfacePolicy P
  helloSeqno : UInt16
  nextHelloMs : UInt64
  nextUpdateMs : UInt64
  lastFullUpdateMs : Option UInt64

structure NeighborKey where
  interface : InterfaceName
  address : IpAddr
deriving DecidableEq, Repr

structure HelloTimer where
  intervalCs : UInt16
  nextExpiryMs : UInt64
deriving DecidableEq, Repr

structure Neighbor (M : Type) where
  candidates : Nat
  rejectedCandidates : UInt64
  lastHelloMs : UInt64
  histories : HelloHistories
  multicastTimer : Option HelloTimer
  unicastTimer : Option HelloTimer
  lastIhuMs : Option UInt64
  lastIhuCost : Option UInt16
  ihuIntervalCs : UInt16
  nextIhuMs : UInt64
  nextRttProbeMs : Option UInt64
  originTimestamp : Option UInt32
  receiveTimestamp : Option UInt32
  unicastHelloSeqno : UInt16
  metric : M

structure Candidate where
  key : RouteKey
  routerId : RouterId
  seqno : UInt16
  advertisedMetric : UInt16
  metric : UInt16
  nextHop : IpAddr
  interface : InterfaceName
  intervalCs : UInt16
  expiresMs : UInt64
  refreshRequested : Bool
deriving DecidableEq

structure Originated where
  metric : UInt16
  seqno : UInt16
deriving DecidableEq, Repr

structure SourceEntry where
  distance : Distance
  expiresMs : UInt64
deriving DecidableEq, Repr

structure PendingSeqnoRequest where
  seqno : UInt16
  hopCount : UInt8
  nextHop : NeighborKey
  requester : Option NeighborKey
  retriesLeft : UInt8
  nextRetryMs : UInt64
deriving DecidableEq, Repr

structure PendingSwitch where
  routerId : RouterId
  nextHop : IpAddr
  interface : InterfaceName
  sinceMs : UInt64
  currentPeakMetric : UInt16
deriving DecidableEq

/-- Synchronous owner of all protocol state. -/
structure Engine (P M : Type) where
  rejections : Rejections
  config : EngineConfig P
  interfaces : OrdMap InterfaceName (InterfaceState P)
  neighbours : AssocMap NeighborKey (Neighbor M)
  candidates : AssocMap (RouteKey × NeighborKey) Candidate
  feasible : AssocMap (RouteKey × RouterId) SourceEntry
  originated : OrdMap RouteKey Originated
  selected : OrdMap RouteKey SelectedRoute
  pendingSeqno : AssocMap (RouteKey × RouterId) PendingSeqnoRequest
  recentSeqno : AssocMap (RouteKey × RouterId) (UInt16 × UInt64)
  tombstones : OrdMap RouteKey UInt64
  advertisedUntil : OrdMap RouteKey UInt64
  pendingAdvertisements : OrdMap RouteKey (UInt64 × Nat)
  pendingSwitches : AssocMap RouteKey PendingSwitch
  settlingSince : AssocMap RouteKey UInt64
  settledRoutes : AssocMap RouteKey Unit
  generation : UInt64
  sequenceNumber : UInt16

namespace Engine

variable {P M : Type}

def initial (config : EngineConfig P) : Engine P M where
  rejections := ⟨0, 0, 0⟩
  config := config
  interfaces := .empty
  neighbours := .empty
  candidates := .empty
  feasible := .empty
  originated := .empty
  selected := .empty
  pendingSeqno := .empty
  recentSeqno := .empty
  tombstones := .empty
  advertisedUntil := .empty
  pendingAdvertisements := .empty
  pendingSwitches := .empty
  settlingSince := .empty
  settledRoutes := .empty
  generation := 0
  sequenceNumber := config.sequenceNumber

/-- Validate configuration and create an engine without performing I/O. -/
def tryNew (config : EngineConfig P) : Except ConfigError (Engine P M) := do
  config.validate
  return initial config

def selectedRoutes (engine : Engine P M) : List SelectedRoute := engine.selected.values

/-- Exact destinations retained as unreachable during the withdrawal hold time. -/
def unreachableRoutes (engine : Engine P M) : List RouteKey := engine.tombstones.keys

def interfaceHelloInterval (engine : Engine P M) (interface : InterfaceName) : UInt16 :=
  match engine.interfaces.get? interface with
  | none => engine.config.helloIntervalCs
  | some state => state.policy.helloIntervalCs

def interfaceUpdateInterval (engine : Engine P M) (interface : InterfaceName) : UInt16 :=
  match engine.interfaces.get? interface with
  | none => engine.config.updateIntervalCs
  | some state => state.policy.updateIntervalCs

def longestUpdateInterval (engine : Engine P M) : UInt16 :=
  match engine.interfaces.values.map fun state => state.policy.updateIntervalCs with
  | [] => engine.config.updateIntervalCs
  | first :: rest => rest.foldl max first

/-- Initial copy plus two repeats, below RFC 8966's maximum of five. -/
def repeatAdvertisement (key : RouteKey) (now : UInt64) (engine : Engine P M) : Engine P M :=
  { engine with
    pendingAdvertisements := engine.pendingAdvertisements.insert key (satAdd now 1000, 2) }

def holdWithdrawal (key : RouteKey) (now : UInt64) (engine : Engine P M) : Engine P M :=
  { engine with
    tombstones := engine.tombstones.insert key
      (max (satAdd now (engine.longestUpdateInterval.toUInt64 * 35))
        ((engine.advertisedUntil.get? key).getD 0)) }

/-- `route_snapshot`: count a new generation and report the complete RIB. -/
def routeSnapshot : Effect (Engine P M) Action := fun engine =>
  let generation := engine.generation + 1
  ({ engine with generation := generation },
    [.routesChanged generation engine.selectedRoutes engine.unreachableRoutes])

end Engine

end BabelRs
