import BabelRs.Model

/-!
# Link-quality profiles, Hello histories and metric composition

Models `metric.rs`.  The traits `NeighborMetric` and `MetricProfile` are classes,
so the engine stays generic in the link metric; `Builtin` collects the profiles
of the crate.  The RTT smoothing is `f64` arithmetic over the samples seen so
far: here the penalty is an arbitrary function of that sample list, which only
`onRttSample` extends.
-/

set_option autoImplicit false

namespace BabelRs

open Lib

/-! ## Hello histories -/

/-- A bounded record of the latest 16 Hello sequence numbers. -/
structure HelloHistory where
  bits : UInt16
  samples : Nat
  expectedSeqno : Option UInt16
deriving DecidableEq, Repr

namespace HelloHistory

def default : HelloHistory := ⟨0, 0, none⟩

def appendMissed (history : HelloHistory) (count : Nat) : HelloHistory :=
  if count ≥ 16 then { history with bits := 0, samples := 16 }
  else
    { history with
      bits := history.bits <<< UInt16.ofNat count
      samples := min (history.samples + count) 16 }

/-- `true` is `HelloHistoryUpdate::Restarted`.  The right shift takes its amount
modulo 16, as an unchecked build of the source does. -/
def record (history : HelloHistory) (seqno : UInt16) : HelloHistory × Bool :=
  match history.expectedSeqno with
  | none => (⟨1, 1, some (seqno + 1)⟩, false)
  | some expected =>
    let forward := seqno - expected
    let backward := expected - seqno
    if forward ≤ 16 then
      let missed := history.appendMissed forward.toNat
      (⟨missed.bits <<< 1 ||| 1, min (missed.samples + 1) 16, some (seqno + 1)⟩, false)
    else if backward ≤ 16 then
      (⟨history.bits >>> backward <<< 1 ||| 1,
        min (history.samples - backward.toNat + 1) 16, some (seqno + 1)⟩, false)
    else (⟨1, 1, some (seqno + 1)⟩, true)

def missedMany (history : HelloHistory) (count : UInt64) : HelloHistory :=
  match history.expectedSeqno with
  | none => history
  | some expected =>
    { history.appendMissed (min count.toNat 16) with
      expectedSeqno := some (expected + count.toUInt16) }

def isEmpty (history : HelloHistory) : Bool := history.bits == 0

def countOnes (bits : UInt16) : Nat :=
  (List.range 16).countP fun position => bits.toNat.testBit position

/-- Received Hellos in the most recent `window` positions, for a window in 1..=16. -/
def received (history : HelloHistory) (window : Nat) : Nat :=
  let mask : UInt16 := if window = 16 then 0xffff else (1 <<< UInt16.ofNat window) - 1
  countOnes (history.bits &&& mask)

def observed (history : HelloHistory) : Nat := history.samples

end HelloHistory

structure HelloHistories where
  multicast : HelloHistory
  unicast : HelloHistory
deriving DecidableEq, Repr

def HelloHistories.default : HelloHistories := ⟨HelloHistory.default, HelloHistory.default⟩

/-! ## The metric traits -/

/-- Per-neighbour metric state: the engine supplies observations, the
implementation turns them into Babel costs. -/
class NeighborMetric (M : Type) where
  onHello : M → HelloHistories → M
  onIhu : M → UInt16 → M
  onRttSample : M → UInt32 → UInt64 → M
  receiveCost : M → UInt16
  transmitCost : M → UInt16
  linkCost : M → UInt16

/-- Factory for independent per-neighbour metric state. -/
class MetricProfile (P : Type) (M : outParam Type) where
  newNeighbor : P → InterfaceName → M
  timestampsEnabled : P → Bool
  rttProbeIntervalMs : P → Option UInt64

/-- A link cost that a change of Hello histories alters only together with the
receive cost: the engine recomputes candidates on a receive-cost change only. -/
class HelloGated (M : Type) [NeighborMetric M] : Prop where
  linkCost_onHello : ∀ (metric : M) (histories : HelloHistories),
    NeighborMetric.receiveCost (NeighborMetric.onHello metric histories) =
        NeighborMetric.receiveCost metric →
      NeighborMetric.linkCost (NeighborMetric.onHello metric histories) =
        NeighborMetric.linkCost metric

/-- A transmit cost that is the receive cost of the last IHU, and a link that none
confirmed is unreachable. -/
class IhuGated (P M : Type) [NeighborMetric M] [MetricProfile P M] : Prop where
  transmitCost_newNeighbor : ∀ (profile : P) (interface : InterfaceName),
    NeighborMetric.transmitCost (MetricProfile.newNeighbor profile interface) = INFINITY
  transmitCost_onHello : ∀ (metric : M) (histories : HelloHistories),
    NeighborMetric.transmitCost (NeighborMetric.onHello metric histories) =
      NeighborMetric.transmitCost metric
  transmitCost_onIhu : ∀ (metric : M) (cost : UInt16),
    NeighborMetric.transmitCost (NeighborMetric.onIhu metric cost) = cost
  transmitCost_onRttSample : ∀ (metric : M) (sample : UInt32) (now : UInt64),
    NeighborMetric.transmitCost (NeighborMetric.onRttSample metric sample now) =
      NeighborMetric.transmitCost metric
  linkCost_unconfirmed : ∀ metric : M, NeighborMetric.transmitCost metric = INFINITY →
    NeighborMetric.linkCost metric = INFINITY

/-- Extends an advertised metric across a link; any pure function. -/
structure MetricAlgebra where
  extend : UInt16 → UInt16 → UInt16

def additiveMetric : MetricAlgebra where
  extend advertisedMetric linkCost :=
    if advertisedMetric = INFINITY ∨ linkCost = 0 ∨ linkCost = INFINITY then INFINITY
    else
      let result := advertisedMetric.toNat + linkCost.toNat
      if result ≥ INFINITY.toNat then INFINITY else UInt16.ofNat result

/-! ## Built-in profiles -/

/-- RFC 8966 Appendix A.2.1 k-out-of-j link sensing. -/
structure WiredMetric where
  nominalCost : UInt16
  received : Nat
  window : Nat
  costPositive : 0 < nominalCost
  costFinite : nominalCost < INFINITY
  receivedPositive : 0 < received
  receivedBounded : received ≤ window
  windowBounded : window ≤ 16

def WiredMetric.new (nominalCost : UInt16) (received window : Nat) : Option WiredMetric :=
  if valid : 0 < nominalCost ∧ nominalCost < INFINITY ∧ 0 < received ∧ received ≤ window ∧
      window ≤ 16 then
    some ⟨nominalCost, received, window, valid.1, valid.2.1, valid.2.2.1, valid.2.2.2.1,
      valid.2.2.2.2⟩
  else none

def WiredMetric.default : WiredMetric :=
  ⟨96, 2, 3, by decide, by decide, by decide, by decide, by decide⟩

/-- RFC 8966 Appendix A.2.2 Expected Transmission Cost. -/
structure EtxMetric where
  window : Nat
  windowPositive : 0 < window
  windowBounded : window ≤ 16

def EtxMetric.nominalCost : Nat := 256

/-- One RTT observation: the sample in microseconds and the engine clock. -/
abbrev RttSample := UInt32 × UInt64

inductive BuiltinProfile where
  | wired (config : WiredMetric)
  | etx (config : EtxMetric)
  | rtt (base : BuiltinProfile) (probeIntervalMs : UInt64) (penalty : List RttSample → UInt16)

inductive BuiltinNeighbor where
  | wired (config : WiredMetric) (histories : HelloHistories) (transmitCost : UInt16)
  | etx (config : EtxMetric) (histories : HelloHistories) (transmitCost : UInt16)
  | rtt (base : BuiltinNeighbor) (penalty : List RttSample → UInt16) (samples : List RttSample)

namespace WiredMetric

def reachable (config : WiredMetric) (histories : HelloHistories) : Bool :=
  histories.multicast.received config.window ≥ config.received ||
    histories.unicast.received config.window ≥ config.received

def receiveCost (config : WiredMetric) (histories : HelloHistories) : UInt16 :=
  if config.reachable histories then config.nominalCost else INFINITY

def linkCost (receiveCost transmitCost : UInt16) : UInt16 :=
  if receiveCost = INFINITY ∨ transmitCost = 0 ∨ transmitCost = INFINITY then INFINITY
  else transmitCost

end WiredMetric

namespace EtxMetric

def receiveCost (config : EtxMetric) (histories : HelloHistories) : UInt16 :=
  let received := histories.multicast.received config.window
  if received = 0 then INFINITY
  else
    let numerator := nominalCost * config.window
    UInt16.ofNat (min ((numerator + received - 1) / received) INFINITY.toNat)

def linkCost (receiveCost transmitCost : UInt16) : UInt16 :=
  if receiveCost = INFINITY ∨ transmitCost = 0 ∨ transmitCost = INFINITY then INFINITY
  else
    let transmit := max transmitCost.toNat nominalCost
    let product := transmit * receiveCost.toNat
    UInt16.ofNat (min ((product + nominalCost - 1) / nominalCost) INFINITY.toNat)

end EtxMetric

variable (metric : BuiltinNeighbor)

namespace BuiltinNeighbor

def onHello : BuiltinNeighbor → HelloHistories → BuiltinNeighbor
  | wired config _ transmitCost, histories => wired config histories transmitCost
  | etx config _ transmitCost, histories => etx config histories transmitCost
  | rtt base penalty samples, histories => rtt (onHello base histories) penalty samples

def onIhu : BuiltinNeighbor → UInt16 → BuiltinNeighbor
  | wired config histories _, cost => wired config histories cost
  | etx config histories _, cost => etx config histories cost
  | rtt base penalty samples, cost => rtt (onIhu base cost) penalty samples

def onRttSample : BuiltinNeighbor → UInt32 → UInt64 → BuiltinNeighbor
  | wired config histories transmitCost, _, _ => wired config histories transmitCost
  | etx config histories transmitCost, _, _ => etx config histories transmitCost
  | rtt base penalty samples, sample, now =>
    rtt (onRttSample base sample now) penalty ((sample, now) :: samples)

def receiveCost : BuiltinNeighbor → UInt16
  | wired config histories _ => config.receiveCost histories
  | etx config histories _ => config.receiveCost histories
  | rtt base _ _ => receiveCost base

def transmitCost : BuiltinNeighbor → UInt16
  | wired _ _ cost => cost
  | etx _ _ cost => cost
  | rtt base _ _ => transmitCost base

def linkCost : BuiltinNeighbor → UInt16
  | wired config histories cost => WiredMetric.linkCost (config.receiveCost histories) cost
  | etx config histories cost => EtxMetric.linkCost (config.receiveCost histories) cost
  | rtt base penalty samples =>
    if linkCost base = INFINITY then INFINITY
    else UInt16.ofNat (min ((linkCost base).toNat + (penalty samples).toNat) INFINITY.toNat)

instance : NeighborMetric BuiltinNeighbor :=
  ⟨onHello, onIhu, onRttSample, receiveCost, transmitCost, linkCost⟩

theorem linkCost_onHello (histories : HelloHistories)
    (same : receiveCost (onHello metric histories) = receiveCost metric) :
    linkCost (onHello metric histories) = linkCost metric := by
  induction metric with
  | wired config before cost =>
    simp only [onHello, receiveCost] at same
    simp only [onHello, linkCost, same]
  | etx config before cost =>
    simp only [onHello, receiveCost] at same
    simp only [onHello, linkCost, same]
  | rtt base penalty samples ih =>
    simp only [onHello, linkCost, ih same]

instance : HelloGated BuiltinNeighbor := ⟨linkCost_onHello⟩

end BuiltinNeighbor

namespace BuiltinProfile

def newNeighbor : BuiltinProfile → BuiltinNeighbor
  | wired config => .wired config HelloHistories.default INFINITY
  | etx config => .etx config HelloHistories.default INFINITY
  | rtt base _ penalty => .rtt (newNeighbor base) penalty []

def timestampsEnabled : BuiltinProfile → Bool
  | rtt _ _ _ => true
  | _ => false

def rttProbeIntervalMs : BuiltinProfile → Option UInt64
  | rtt _ interval _ => some interval
  | _ => none

instance : MetricProfile BuiltinProfile BuiltinNeighbor :=
  ⟨fun profile _ => newNeighbor profile, timestampsEnabled, rttProbeIntervalMs⟩

theorem transmitCost_newNeighbor (profile : BuiltinProfile) :
    BuiltinNeighbor.transmitCost (newNeighbor profile) = INFINITY := by
  induction profile with
  | wired config => rfl
  | etx config => rfl
  | rtt base interval penalty ih => exact ih

end BuiltinProfile

namespace BuiltinNeighbor

theorem transmitCost_onHello (histories : HelloHistories) :
    transmitCost (onHello metric histories) = transmitCost metric := by
  induction metric with
  | wired config before cost => rfl
  | etx config before cost => rfl
  | rtt base penalty samples ih => exact ih

theorem transmitCost_onIhu (cost : UInt16) :
    transmitCost (onIhu metric cost) = cost := by
  induction metric with
  | wired config histories before => rfl
  | etx config histories before => rfl
  | rtt base penalty samples ih => exact ih

theorem transmitCost_onRttSample (sample : UInt32) (now : UInt64) :
    transmitCost (onRttSample metric sample now) = transmitCost metric := by
  induction metric with
  | wired config histories cost => rfl
  | etx config histories cost => rfl
  | rtt base penalty samples ih => exact ih

theorem linkCost_unconfirmed (unconfirmed : transmitCost metric = INFINITY) :
    linkCost metric = INFINITY := by
  induction metric with
  | wired config histories cost => exact if_pos (Or.inr (Or.inr unconfirmed))
  | etx config histories cost => exact if_pos (Or.inr (Or.inr unconfirmed))
  | rtt base penalty samples ih => exact if_pos (ih unconfirmed)

end BuiltinNeighbor

instance : IhuGated BuiltinProfile BuiltinNeighbor where
  transmitCost_newNeighbor profile _ := profile.transmitCost_newNeighbor
  transmitCost_onHello := BuiltinNeighbor.transmitCost_onHello
  transmitCost_onIhu := BuiltinNeighbor.transmitCost_onIhu
  transmitCost_onRttSample := BuiltinNeighbor.transmitCost_onRttSample
  linkCost_unconfirmed := BuiltinNeighbor.linkCost_unconfirmed

end BabelRs
