import BabelRs.Safety.HelloTimers
import BabelRs.Safety.LastWord

/-!
# What was heard of a neighbour

A ghost record of the run notes the latest scheduled Hello of each kind, the latest
applicable IHU and the latest stored Update.  The timers of the engine are those of the
record: a Hello history is empty or has a timer that counts from the latest Hello, a
transmit cost is that of the latest IHU, and a candidate that is not retracted expires
with its latest Update.
-/

set_option autoImplicit false

namespace BabelRs

open Lib Lib.Effect

structure Sighting where
  intervalCs : UInt16
  receivedMs : UInt64
deriving DecidableEq

/-- The latest scheduled Hellos, by kind, the latest applicable IHUs and the latest
stored Updates. -/
structure Heard where
  hello : NeighborKey → Bool → Option Sighting
  ihu : NeighborKey → Option Sighting
  update : RouteKey × NeighborKey → Option Sighting

namespace Heard

def nothing : Heard := ⟨fun _ _ => none, fun _ => none, fun _ => none⟩

def noteHello (neighbour : NeighborKey) (now : UInt64) (heard : Heard) (tlv : Tlv) : Heard :=
  match tlv with
  | .hello unicast _ intervalCs _ =>
    if intervalCs = 0 then heard
    else
      { heard with
        hello := fun key kind =>
          if key = neighbour ∧ kind = unicast then some ⟨intervalCs, now⟩ else heard.hello key kind }
  | _ => heard

def noteIhu (neighbour : NeighborKey) (localAddresses : List IpAddr) (now : UInt64) (heard : Heard)
    (tlv : Tlv) : Heard :=
  match tlv with
  | .ihu address _ intervalCs _ =>
    if intervalCs ≠ 0 ∧ ihuApplies address localAddresses then
      { heard with
        ihu := fun key => if key = neighbour then some ⟨intervalCs, now⟩ else heard.ihu key }
    else heard
  | _ => heard

def noteUpdate (neighbour : NeighborKey) (now : UInt64) (stored : Option Engine.FiniteUpdate)
    (heard : Heard) : Heard :=
  match stored with
  | none => heard
  | some update =>
    { heard with
      update := fun entry =>
        if entry = (update.key, neighbour) then some ⟨update.intervalCs, now⟩
        else heard.update entry }

end Heard

variable {history : HelloHistory}

namespace HelloHistory

theorem expectedSeqno_record (history : HelloHistory) (seqno : UInt16) :
    (history.record seqno).1.expectedSeqno.isSome = true := by
  unfold record
  split
  · rfl
  · dsimp only
    split_ifs <;> rfl

end HelloHistory

variable {intervalCs : UInt16}

namespace Neighbor

variable {M : Type}

def helloTimer (neighbour : Neighbor M) (unicast : Bool) : Option HelloTimer :=
  if unicast then neighbour.unicastTimer else neighbour.multicastTimer

def helloHistory (neighbour : Neighbor M) (unicast : Bool) : HelloHistory :=
  if unicast then neighbour.histories.unicast else neighbour.histories.multicast

theorem helloTimer_armHelloTimer (scheduled : intervalCs ≠ 0) (unicast : Bool) (now : UInt64)
    (neighbour : Neighbor M) (kind : Bool) :
    (neighbour.armHelloTimer unicast intervalCs now).helloTimer kind =
      if kind = unicast then some ⟨intervalCs, satAdd now (satMul intervalCs.toUInt64 15)⟩
      else neighbour.helloTimer kind := by
  cases unicast <;> cases kind <;> simp [armHelloTimer, helloTimer, scheduled]

theorem helloHistory_recordHello (neighbour : Neighbor M) (unicast : Bool) (seqno : UInt16)
    (kind : Bool) :
    (neighbour.recordHello unicast seqno).1.helloHistory kind =
      if kind = unicast then ((neighbour.helloHistory kind).record seqno).1
      else neighbour.helloHistory kind := by
  cases unicast <;> cases kind <;> rfl

/-- Recording a Hello changes the histories alone. -/
theorem recordHello_kept {α : Type} (field : Neighbor M → α) (neighbour : Neighbor M) (unicast : Bool)
    (seqno : UInt16)
    (blind : ∀ histories, field { neighbour with histories := histories } = field neighbour) :
    field (neighbour.recordHello unicast seqno).1 = field neighbour := by
  cases unicast <;> exact blind _

theorem helloHistory_restart {P : Type} [NeighborMetric M] [MetricProfile P M] (profile : P)
    (key : NeighborKey) (unicast : Bool) (seqno : UInt16) (now : UInt64) (neighbour : Neighbor M)
    (kind : Bool) :
    (neighbour.restart profile key unicast seqno now).helloHistory kind =
      if kind = unicast then (HelloHistory.default.record seqno).1 else HelloHistory.default := by
  cases unicast <;> cases kind <;> rfl

end Neighbor

namespace Engine

variable {P M : Type}
variable {s t : Engine P M} {actions : List Action} {now : UInt64} {event : Event P}
  {neighbour : NeighborKey}

section Record

/-- The Update that `receive_update` puts into the candidate table, if it does. -/
def storedUpdate (engine : Engine P M) (neighbour : NeighborKey) (tlv : Tlv) : Option FiniteUpdate :=
  match tlv with
  | .update update =>
    (resolvedFinite update).filter fun finite =>
      engine.admits neighbour finite && !engine.ignoresRefresh neighbour finite
  | _ => none

variable [NeighborMetric M]

/-- Note the Updates that the TLV loop stores. -/
def noteUpdates (order : HashOrder) (neighbour : NeighborKey) (now : UInt64) :
    List Tlv → ReceiveState P M → Heard → Heard
  | [], _, heard => heard
  | tlv :: rest, state, heard =>
    noteUpdates order neighbour now rest (receiveTlv order neighbour now tlv state).1
      (heard.noteUpdate neighbour now (state.engine.storedUpdate neighbour tlv))

variable [MetricProfile P M]

/-- `receive` drops the packets of a former transport and those of new neighbours that
find no room. -/
def drops (engine : Engine P M) (state : InterfaceState P) (neighbour : NeighborKey)
    (packet : Packet) : Bool :=
  state.policy.controlTransport.multicast.isIpv4 != neighbour.address.isIpv4 ||
    (!engine.neighbours.containsKey neighbour &&
      decide (engine.neighbours.len ≥ engine.config.limits.maxNeighbors) && packet.hasHello)

/-- What a packet adds to the record.  The Hellos and IHUs of a dropped one count as well. -/
def hearPacket (order : HashOrder) (neighbour : NeighborKey) (packet : Packet) (now : UInt64)
    (receiveTimestamp : UInt32) (engine : Engine P M) (heard : Heard) : Heard :=
  let greeted := packet.tlvs.foldl (Heard.noteHello neighbour now) heard
  match engine.interfaces.get? neighbour.interface with
  | none => greeted
  | some state =>
    let confirmed := packet.tlvs.foldl (Heard.noteIhu neighbour state.localAddresses now) greeted
    if engine.drops state neighbour packet then confirmed
    else
      noteUpdates order neighbour now packet.tlvs
        (engine.heardPacket state neighbour packet now receiveTimestamp) confirmed

def hear (order : HashOrder) (event : Event P) (engine : Engine P M) (heard : Heard) : Heard :=
  match event with
  | .packetReceived interface source packet now =>
    hearPacket order ⟨interface, source⟩ packet now (timestampUs now) engine heard
  | .packetReceivedWithTimestamp interface source packet now receivedTimestampUs =>
    hearPacket order ⟨interface, source⟩ packet now receivedTimestampUs engine heard
  | _ => heard

end Record

/-! ## The record and the timers -/

/-- The clock leaves room for every timer: no deadline saturates. -/
def Roomy (now : UInt64) : Prop := now.toNat + 35 * 65535 < 2 ^ 64

instance (now : UInt64) : Decidable (Roomy now) :=
  inferInstanceAs (Decidable (now.toNat + 35 * 65535 < 2 ^ 64))

/-- A Hello timer counts from the latest Hello of its kind; without one the history is empty. -/
def Clocked (sighting : Option Sighting) (timer : Option HelloTimer) (history : HelloHistory) :
    Prop :=
  match timer with
  | none => history.bits = 0
  | some timer =>
    timer.intervalCs ≠ 0 ∧ history.expectedSeqno.isSome = true ∧
      ∃ received, sighting = some ⟨timer.intervalCs, received⟩ ∧
        Monitors (15 * timer.intervalCs.toNat) (10 * timer.intervalCs.toNat) 16 received.toNat
          timer.nextExpiryMs.toNat history.bits.toNat

theorem toNat_satAdd_roomy {offset : UInt64} (roomy : Roomy now)
    (small : offset.toNat ≤ 35 * 65535) : (satAdd now offset).toNat = now.toNat + offset.toNat := by
  rw [toNat_satAdd]
  simp only [Roomy] at roomy
  exact Nat.min_eq_left (by simp only [u64Max]; omega)

theorem Clocked.advance (roomy : Roomy now) {sighting : Option Sighting} {timer : Option HelloTimer}
    (clocked : Clocked sighting timer history) :
    Clocked sighting (advanceHelloTimer now timer history).1
        (advanceHelloTimer now timer history).2 ∧
      ∀ value, (advanceHelloTimer now timer history).1 = some value → now < value.nextExpiryMs := by
  cases timer with
  | none => exact ⟨clocked, fun value absent => by cases absent⟩
  | some timer =>
    by_cases waiting : now < timer.nextExpiryMs
    · rw [advanceHelloTimer_waiting waiting]
      exact ⟨clocked, fun value same => by cases same; exact waiting⟩
    · have due := UInt64.not_lt.mp waiting
      obtain ⟨scheduled, started, received, sighted, monitors⟩ := clocked
      obtain ⟨ahead, close⟩ := expiry_passed due
      -- The interval is positive, so its lower bound of one does nothing.
      have period : timer.period = 10 * timer.intervalCs.toNat := by
        have nonzero : timer.intervalCs.toNat ≠ 0 := fun zero =>
          scheduled (UInt16.toNat_inj.mp zero)
        exact Nat.max_eq_left (by omega)
      have room : timer.nextExpiryMs.toNat + timer.period * timer.missedAt now < 2 ^ 64 := by
        have bound := timer.intervalCs.toNat_lt
        simp only [Roomy] at roomy
        omega
      have few : timer.missedAt now ≤ timer.period * timer.missedAt now :=
        Nat.le_mul_of_pos_left _ timer.period_pos
      have shifted := monitors.shift (timer.missedAt now)
      obtain ⟨bits, restarted⟩ :=
        HelloHistory.bits_missedMany started (.ofNat (timer.missedAt now))
      rw [UInt64.toNat_ofNat', Nat.mod_eq_of_lt (by omega : timer.missedAt now < 2 ^ 64)] at bits
      have expiry : (UInt64.ofNat (timer.nextExpiryMs.toNat +
          timer.period * timer.missedAt now)).toNat = _ :=
        UInt64.toNat_ofNat'.trans (Nat.mod_eq_of_lt room)
      rw [← bits, ← period, ← expiry] at shifted
      rw [advanceHelloTimer_due due room]
      refine ⟨⟨scheduled, restarted, received, sighted, period ▸ shifted⟩, ?_⟩
      intro value same
      cases same
      rw [UInt64.lt_iff_toNat_lt, expiry]
      exact ahead

/-! ## Changes that leave the record alone -/

/-- The part of a neighbour that link sensing reads and writes. -/
def hearing (neighbour : Neighbor M) : HelloHistories × Option HelloTimer × Option HelloTimer ×
    Option UInt64 × Option UInt16 × UInt16 × M :=
  (neighbour.histories, neighbour.multicastTimer, neighbour.unicastTimer, neighbour.lastIhuMs,
    neighbour.lastIhuCost, neighbour.ihuIntervalCs, neighbour.metric)

/-- Neighbours and candidates disappear, or keep what was heard of them. -/
structure Retains (s t : Engine P M) : Prop where
  neighbours : ∀ key neighbour, t.neighbours.get? key = some neighbour →
    ∃ old, s.neighbours.get? key = some old ∧ hearing neighbour = hearing old
  candidates : ∀ entry candidate, t.candidates.get? entry = some candidate →
    candidate.advertisedMetric ≠ INFINITY →
      ∃ old, s.candidates.get? entry = some old ∧ old.advertisedMetric ≠ INFINITY ∧
        candidate.intervalCs = old.intervalCs ∧ candidate.expiresMs = old.expiresMs

theorem Retains.refl (s : Engine P M) : Retains s s :=
  ⟨fun _ neighbour found => ⟨neighbour, found, rfl⟩,
    fun _ candidate found finite => ⟨candidate, found, finite, rfl, rfl⟩⟩

theorem Retains.trans {middle : Engine P M} (first : Retains s middle) (second : Retains middle t) :
    Retains s t where
  neighbours key neighbour found := by
    obtain ⟨between, there, same⟩ := second.neighbours key neighbour found
    obtain ⟨old, stored, before⟩ := first.neighbours key between there
    exact ⟨old, stored, same.trans before⟩
  candidates entry candidate found finite := by
    obtain ⟨between, there, still, interval, expiry⟩ := second.candidates entry candidate found finite
    obtain ⟨old, stored, was, intervalBefore, expiryBefore⟩ :=
      first.candidates entry between there still
    exact ⟨old, stored, was, interval.trans intervalBefore, expiry.trans expiryBefore⟩

theorem Retains.of_neighbours (candidates : t.candidates = s.candidates)
    (neighbours : ∀ key neighbour, t.neighbours.get? key = some neighbour →
      ∃ old, s.neighbours.get? key = some old ∧ hearing neighbour = hearing old) : Retains s t :=
  ⟨neighbours, by rw [candidates]; exact (Retains.refl s).candidates⟩

theorem Retains.of_candidates (neighbours : t.neighbours = s.neighbours)
    (candidates : ∀ entry candidate, t.candidates.get? entry = some candidate →
      candidate.advertisedMetric ≠ INFINITY →
        ∃ old, s.candidates.get? entry = some old ∧ old.advertisedMetric ≠ INFINITY ∧
          candidate.intervalCs = old.intervalCs ∧ candidate.expiresMs = old.expiresMs) :
    Retains s t :=
  ⟨by rw [neighbours]; exact (Retains.refl s).neighbours, candidates⟩

theorem Retains.of_adjacencies (candidates : t.candidates = s.candidates)
    (adjacencies : ∀ key, t.adjacency key = s.adjacency key) : Retains s t := by
  refine .of_neighbours candidates fun key neighbour found => ?_
  have same := adjacencies key
  simp only [adjacency, found, Option.map_some] at same
  obtain ⟨old, stored, equal⟩ := Option.map_eq_some_iff.mp same.symm
  exact ⟨old, stored, (congrArg hearing equal).symm⟩

theorem retains_chains : Chains fun (s : Engine P M) (_ : List Action) t => Retains s t :=
  ⟨Retains.refl, fun first second => first.trans second⟩

theorem Output.retains {ticks : Bool} (output : Output ticks now s actions t) : Retains s t := by
  cases output.coda with
  | announced announces =>
    exact .of_adjacencies announces.quiet.candidates announces.quiet.adjacencies
  | reported => exact .of_adjacencies rfl fun _ => rfl
  | held _ _ _ => exact .of_adjacencies rfl fun _ => rfl
  | lifted _ _ => exact .of_adjacencies rfl fun _ => rfl

theorem outputs_retains {ticks : Bool} (outputs : Steps (Output ticks now) s actions t) :
    Retains s t :=
  outputs.fold retains_chains Output.retains

theorem Reselects.retains (reselects : Reselects now s actions t) : Retains s t :=
  .of_adjacencies reselects.tables.candidates reselects.tables.adjacencies

theorem Edit.retains {before : Engine P M} (edit : Edit before event s actions t) :
    Retains s t := by
  cases edit <;> exact .of_adjacencies rfl fun _ => rfl

theorem detachNeighbours_retains (interface : InterfaceName) (s : Engine P M) :
    Retains s (s.detachNeighbours interface) := by
  refine ⟨fun key known found => ?_, fun entry candidate found finite => ?_⟩
  · simp only [detachNeighbours, AssocMap.get?_retain, Option.filter_eq_some_iff] at found
    exact ⟨known, found.1, rfl⟩
  · simp only [detachNeighbours, AssocMap.get?_retain, Option.filter_eq_some_iff] at found
    exact ⟨candidate, found.1, finite, rfl, rfl⟩

theorem Reconfiguration.retains (change : Reconfiguration now s t) : Retains s t := by
  cases change with
  | unchanged => exact .refl s
  | attached interface localAddresses policy =>
    unfold attachInterface
    split
    · exact .refl s
    · exact .of_adjacencies rfl fun _ => rfl
  | installed _ _ => exact .of_adjacencies rfl fun _ => rfl
  | rehoused interface policy =>
    exact (Retains.of_adjacencies rfl fun _ => rfl : Retains s (s.installPolicy interface policy
      now)).trans (detachNeighbours_retains interface _)
  | readdressed interface localAddresses => exact .of_adjacencies rfl fun _ => rfl
  | removed interface =>
    exact (detachNeighbours_retains interface s).trans (.of_adjacencies rfl fun _ => rfl)
  | replaced policy =>
    refine ⟨fun key known found => ?_, fun entry candidate found finite => ?_⟩
    · simp only [applyRoutePolicy, AssocMap.get?_mapValues, Option.map_eq_some_iff] at found
      obtain ⟨old, stored, rfl⟩ := found
      exact ⟨old, stored, rfl⟩
    · simp only [applyRoutePolicy, AssocMap.get?_retain, Option.filter_eq_some_iff] at found
      exact ⟨candidate, found.1, finite, rfl, rfl⟩

theorem requestRefreshes_retains (order : HashOrder) (now : UInt64) (s : Engine P M) :
    Retains s (s.requestRefreshes order now).1 := by
  refine .of_candidates rfl fun entry candidate found finite => ?_
  simp only [requestRefreshes, AssocMap.get?_mapValues, Option.map_eq_some_iff] at found
  obtain ⟨old, stored, rfl⟩ := found
  refine ⟨old, stored, ?_⟩
  split at finite
  next due => exact ⟨finite, by rw [if_pos due], by rw [if_pos due]⟩
  next early => exact ⟨finite, by rw [if_neg early], by rw [if_neg early]⟩

section Metric
variable [NeighborMetric M]

/-- The timers and the transmit cost of a neighbour are those of the record. -/
structure Tuned (heard : Heard) (key : NeighborKey) (neighbour : Neighbor M) : Prop where
  clocked : ∀ unicast, Clocked (heard.hello key unicast) (neighbour.helloTimer unicast)
    (neighbour.helloHistory unicast)
  paired : neighbour.lastIhuMs = none → neighbour.lastIhuCost = none
  cost : NeighborMetric.transmitCost neighbour.metric = neighbour.lastIhuCost.getD INFINITY
  ihu : ∀ last, neighbour.lastIhuMs = some last →
    heard.ihu key = some ⟨neighbour.ihuIntervalCs, last⟩

/-- A candidate that is not retracted expires with its latest Update. -/
def Dated (sighting : Option Sighting) (candidate : Candidate) : Prop :=
  candidate.advertisedMetric ≠ INFINITY →
    ∃ received, sighting = some ⟨candidate.intervalCs, received⟩ ∧
      candidate.expiresMs = satAdd received (candidate.intervalCs.toUInt64 * 35)

structure Attested (heard : Heard) (s : Engine P M) : Prop where
  tuned : ∀ key neighbour, s.neighbours.get? key = some neighbour → Tuned heard key neighbour
  dated : ∀ entry candidate, s.candidates.get? entry = some candidate →
    Dated (heard.update entry) candidate

variable {heard : Heard} {key : NeighborKey}

theorem Tuned.congr {neighbour old : Neighbor M} (same : hearing neighbour = hearing old)
    (tuned : Tuned heard key old) :
    Tuned heard key neighbour := by
  simp only [hearing, Prod.mk.injEq] at same
  obtain ⟨histories, multicast, unicast, lastIhuMs, lastIhuCost, ihuIntervalCs, metric⟩ := same
  refine ⟨fun kind => ?_, ?_, ?_, ?_⟩
  · have clocked := tuned.clocked kind
    simp only [Neighbor.helloTimer, Neighbor.helloHistory] at clocked ⊢
    rw [multicast, unicast, histories]
    exact clocked
  · rw [lastIhuMs, lastIhuCost]
    exact tuned.paired
  · rw [metric, lastIhuCost]
    exact tuned.cost
  · rw [lastIhuMs, ihuIntervalCs]
    exact tuned.ihu

theorem Attested.retain (attested : Attested heard s) (retains : Retains s t) :
    Attested heard t where
  tuned key neighbour found := by
    obtain ⟨old, stored, same⟩ := retains.neighbours key neighbour found
    exact (attested.tuned key old stored).congr same
  dated entry candidate found finite := by
    obtain ⟨old, stored, was, interval, expiry⟩ := retains.candidates entry candidate found finite
    rw [interval, expiry]
    exact attested.dated entry old stored was

theorem recomputeCandidateMetrics_retains (only : Option NeighborKey) (s : Engine P M) :
    Retains s (s.recomputeCandidateMetrics only).1 := by
  refine .of_candidates rfl fun entry candidate found finite => ?_
  simp only [recomputeCandidateMetrics, AssocMap.get?_mapValues, Option.map_eq_some_iff] at found
  obtain ⟨old, stored, rfl⟩ := found
  exact ⟨old, stored, finite, rfl, rfl⟩

/-! ## Route TLVs -/

variable {update : ResolvedUpdate}

/-- Receiving an Update counts candidates, and hears nothing of a link. -/
theorem UpdateEffect.hearing {outcome : UpdateOutcome P M}
    (effect : UpdateEffect neighbour now update s outcome) (key : NeighborKey) {known : Neighbor M}
    (found : outcome.engine.neighbours.get? key = some known) :
    ∃ old, s.neighbours.get? key = some old ∧ Engine.hearing known = Engine.hearing old := by
  have counted : ∀ {u : Engine P M} {change : Neighbor M → Neighbor M},
      (u.neighbours.modify neighbour change).get? key = some known →
        (∀ state, Engine.hearing (change state) = Engine.hearing state) →
        ∃ old, u.neighbours.get? key = some old ∧ Engine.hearing known = Engine.hearing old := by
    intro u change stored same
    rw [AssocMap.get?_modify, Option.map_eq_some_iff] at stored
    obtain ⟨old, there, rfl⟩ := stored
    refine ⟨old, there, ?_⟩
    split
    · exact same old
    · rfl
  cases effect with
  | announced announces _ =>
    exact (Retains.of_adjacencies announces.quiet.candidates
      announces.quiet.adjacencies).neighbours key known found
  | retractedAll _ _ => exact ⟨known, found, rfl⟩
  | retracted _ _ _ => exact ⟨known, found, rfl⟩
  | rejected finite _ =>
    simp only [rejectByPolicy] at found
    split at found
    · exact counted found fun _ => rfl
    · exact ⟨known, found, rfl⟩
  | limited _ => exact counted found fun _ => rfl
  | stored finite state _ _ _ _ _ requests =>
    have quiet := requests_quiet requests
    have settled := (Retains.of_adjacencies quiet.candidates quiet.adjacencies).neighbours key
    simp only [storeCandidate] at found
    split at found
    · exact settled known found
    · obtain ⟨old, there, same⟩ := counted found fun _ => rfl
      obtain ⟨first, stored, before⟩ := settled old there
      exact ⟨first, stored, same.trans before⟩

omit [NeighborMetric M] in
theorem storedUpdate_of_checks {finite : FiniteUpdate} {state : Neighbor M}
    (resolved : resolvedFinite update = some finite)
    (admitted : s.admissible neighbour finite = true)
    (known : s.neighbours.get? neighbour = some state) (room : s.hasRoom neighbour state finite.key)
    (current : s.sourceFeasible finite.key finite.routerId finite.distance = true ∨
      s.refreshesSelected neighbour finite = false) :
    s.storedUpdate neighbour (.update update) = some finite := by
  have admits : s.admits neighbour finite = true := by
    simpa [Engine.admits, admitted, known, hasRoom] using room
  have heeded : s.ignoresRefresh neighbour finite = false := by
    rcases current with feasible | other
    · simp [ignoresRefresh, feasible]
    · simp [ignoresRefresh, other]
  simp only [storedUpdate, resolved, Option.filter_some, admits, heeded, Bool.not_false,
    Bool.and_self, if_true]

theorem UpdateEffect.dated {outcome : UpdateOutcome P M}
    (effect : UpdateEffect neighbour now update s outcome) {entry : RouteKey × NeighborKey}
    {candidate : Candidate} (found : outcome.engine.candidates.get? entry = some candidate)
    (finite : candidate.advertisedMetric ≠ INFINITY) :
    s.candidates.get? entry = some candidate ∨
      ∃ stored metric, s.storedUpdate neighbour (.update update) = some stored ∧
        entry = (stored.key, neighbour) ∧ candidate = storedCandidate neighbour stored metric now := by
  -- A retracted candidate is not finite, so a finite one was not touched.
  have retracted : ∀ {old : Candidate} {condition : Prop} [Decidable condition],
      (if condition then retractCandidate old else old) = candidate → old = candidate := by
    intro old condition _ same
    split at same
    · exact absurd (same ▸ rfl) finite
    · exact same
  cases effect with
  | announced announces _ => exact Or.inl (announces.quiet.candidates ▸ found)
  | retractedAll _ _ =>
    simp only [retractAll, AssocMap.get?_mapValues, Option.map_eq_some_iff] at found
    obtain ⟨old, stored, same⟩ := found
    exact Or.inl (retracted same ▸ stored)
  | retracted _ _ _ =>
    simp only [retractOne, AssocMap.get?_modify, Option.map_eq_some_iff] at found
    obtain ⟨old, stored, same⟩ := found
    left
    split at same
    · exact absurd (same ▸ rfl) finite
    · exact same ▸ stored
  | rejected _ _ =>
    left
    simp only [rejectByPolicy] at found
    split at found
    · simp only [AssocMap.get?_remove] at found
      split at found
      · cases found
      · exact found
    · exact found
  | limited _ => exact Or.inl found
  | stored stored state resolved admitted known room current requests =>
    simp only [storeCandidate, AssocMap.get?_insert] at found
    split at found
    next same =>
      exact Or.inr ⟨stored, _, storedUpdate_of_checks resolved admitted known room current,
        same.symm, (Option.some.inj found).symm⟩
    next => exact Or.inl ((requests_quiet requests).candidates ▸ found)

theorem receiveUpdate_attested (order : HashOrder) (neighbour : NeighborKey)
    (update : ResolvedUpdate) (attested : Attested heard s) :
    Attested (heard.noteUpdate neighbour now (s.storedUpdate neighbour (.update update)))
      (s.receiveUpdate order neighbour update now).engine := by
  have effect : UpdateEffect neighbour now update s _ := receiveUpdate_effect order neighbour update s
  refine ⟨fun key known found => ?_, fun entry candidate found finite => ?_⟩
  · obtain ⟨old, stored, same⟩ := effect.hearing key found
    have tuned := (attested.tuned key old stored).congr same
    unfold Heard.noteUpdate
    split
    · exact tuned
    · exact ⟨tuned.clocked, tuned.paired, tuned.cost, tuned.ihu⟩
  · cases stores : s.storedUpdate neighbour (.update update) with
    | none =>
      rcases effect.dated found finite with kept | ⟨stored, _, some, _⟩
      · exact attested.dated entry candidate kept finite
      · cases stores.symm.trans some
    | some stored =>
      simp only [Heard.noteUpdate]
      split
      next here =>
        subst here
        obtain ⟨resolved, checks⟩ := Option.filter_eq_some_iff.mp stores
        obtain ⟨admitted, heeded⟩ := Bool.and_eq_true_iff.mp checks
        have written : ∃ metric, (s.receiveUpdate order neighbour update now).engine.candidates.get?
            (stored.key, neighbour) = _ := get?_candidates_receiveUpdate order resolved admitted
        obtain ⟨metric, written⟩ := written
        rw [if_neg (by simpa using heeded), found] at written
        cases written
        exact ⟨now, rfl, rfl⟩
      next elsewhere =>
        rcases effect.dated found finite with kept | ⟨other, _, some, there, _⟩
        · exact attested.dated entry candidate kept finite
        · cases stores.symm.trans some
          exact absurd there elsewhere

theorem receiveTlv_attested (order : HashOrder) (neighbour : NeighborKey) (tlv : Tlv)
    {state : ReceiveState P M} (attested : Attested heard state.engine) :
    Attested (heard.noteUpdate neighbour now (state.engine.storedUpdate neighbour tlv))
      (receiveTlv order neighbour now tlv state).1.engine := by
  by_cases isUpdate : ∃ update, tlv = .update update
  · obtain ⟨update, rfl⟩ := isUpdate
    exact receiveUpdate_attested order neighbour update attested
  · have unstored : state.engine.storedUpdate neighbour tlv = none := by
      cases tlv with
      | update update => exact absurd ⟨update, rfl⟩ isUpdate
      | _ => rfl
    rw [unstored]
    obtain ⟨_, _, effect⟩ := receiveTlv_effect order neighbour now tlv state
    generalize (receiveTlv order neighbour now tlv state).1.engine = t at effect
    generalize (receiveTlv order neighbour now tlv state).2 = actions at effect
    cases effect with
    | announced announces _ =>
      exact attested.retain (.of_adjacencies announces.quiet.candidates announces.quiet.adjacencies)
    | bumped key _ announces _ =>
      exact attested.retain (.of_adjacencies announces.quiet.candidates announces.quiet.adjacencies)
    | updated update same _ => exact absurd ⟨update, same⟩ isUpdate

theorem receiveTlvs_attested (order : HashOrder) (neighbour : NeighborKey) (tlvs : List Tlv)
    {state : ReceiveState P M} (attested : Attested heard state.engine) :
    Attested (noteUpdates order neighbour now tlvs state heard)
      (forEach tlvs (receiveTlv order neighbour now) state).1.engine := by
  induction tlvs generalizing heard state with
  | nil => exact attested
  | cons tlv rest ih => exact ih (receiveTlv_attested order neighbour tlv attested)

/-! ## Hellos and IHUs -/

/-- Records that differ in the Hellos and IHUs of one neighbour at most. -/
structure Agrees (neighbour : NeighborKey) (heard later : Heard) : Prop where
  hello : ∀ key, key ≠ neighbour → later.hello key = heard.hello key
  ihu : ∀ key, key ≠ neighbour → later.ihu key = heard.ihu key
  update : later.update = heard.update

theorem Agrees.refl (neighbour : NeighborKey) (heard : Heard) : Agrees neighbour heard heard :=
  ⟨fun _ _ => rfl, fun _ _ => rfl, rfl⟩

variable {later : Heard}

theorem Agrees.trans {middle : Heard} (first : Agrees neighbour heard middle)
    (second : Agrees neighbour middle later) :
    Agrees neighbour heard later where
  hello key apart := (second.hello key apart).trans (first.hello key apart)
  ihu key apart := (second.ihu key apart).trans (first.ihu key apart)
  update := second.update.trans first.update

theorem agrees_noteHello (neighbour : NeighborKey) (now : UInt64) (heard : Heard) (tlv : Tlv) :
    Agrees neighbour heard (heard.noteHello neighbour now tlv) := by
  unfold Heard.noteHello
  split
  · split
    · exact .refl neighbour heard
    · exact ⟨fun key apart => by simp [apart], fun _ _ => rfl, rfl⟩
  · exact .refl neighbour heard

theorem agrees_noteIhu (neighbour : NeighborKey) (localAddresses : List IpAddr) (now : UInt64)
    (heard : Heard) (tlv : Tlv) :
    Agrees neighbour heard (heard.noteIhu neighbour localAddresses now tlv) := by
  unfold Heard.noteIhu
  split
  · split
    · exact ⟨fun _ _ => rfl, fun key apart => by simp [apart], rfl⟩
    · exact .refl neighbour heard
  · exact .refl neighbour heard

theorem agrees_foldl {note : Heard → Tlv → Heard}
    (each : ∀ heard tlv, Agrees neighbour heard (note heard tlv)) (tlvs : List Tlv) (heard : Heard) :
    Agrees neighbour heard (tlvs.foldl note heard) := by
  induction tlvs generalizing heard with
  | nil => exact .refl neighbour heard
  | cons tlv rest ih => exact (each heard tlv).trans (ih _)

theorem Tuned.agree {known : Neighbor M} (agrees : Agrees neighbour heard later)
    (apart : key ≠ neighbour) (tuned : Tuned heard key known) :
    Tuned later key known where
  clocked unicast := by
    rw [agrees.hello key apart]
    exact tuned.clocked unicast
  paired := tuned.paired
  cost := tuned.cost
  ihu := by
    rw [agrees.ihu key apart]
    exact tuned.ihu

/-- Nothing heard of an unknown neighbour contradicts the tables. -/
theorem Attested.agree (attested : Attested heard s) (agrees : Agrees neighbour heard later)
    (unknown : s.neighbours.containsKey neighbour = false) :
    Attested later s where
  tuned key known found := by
    refine (attested.tuned key known found).agree agrees ?_
    rintro rfl
    rw [AssocMap.containsKey, found] at unknown
    cases unknown
  dated entry candidate found := by
    rw [agrees.update]
    exact attested.dated entry candidate found

theorem Clocked.started (roomy : Roomy now) (scheduled : intervalCs ≠ 0) (history : HelloHistory)
    (seqno : UInt16) :
    Clocked (some ⟨intervalCs, now⟩)
      (some ⟨intervalCs, satAdd now (satMul intervalCs.toUInt64 15)⟩) (history.record seqno).1 := by
  have bound := intervalCs.toNat_lt
  have grace : (satMul intervalCs.toUInt64 15).toNat = 15 * intervalCs.toNat := by
    rw [toNat_interval _ _ (by decide)]
    exact Nat.mul_comm _ _
  refine ⟨scheduled, history.expectedSeqno_record seqno, now, rfl, ?_⟩
  rw [toNat_satAdd_roomy roomy (by omega), grace]
  exact Monitors.started _ _ _ _ _

/-- Arming the timer of a recorded Hello tunes a neighbour whose other kind is tuned. -/
theorem armHelloTimer_tuned (roomy : Roomy now) {unicast : Bool} {seqno : UInt16}
    (scheduled : intervalCs ≠ 0) (subTlvs : List SubTlv) {base : Neighbor M}
    (recorded : base.helloHistory unicast = (history.record seqno).1)
    (other : ∀ kind, kind ≠ unicast →
      Clocked (heard.hello key kind) (base.helloTimer kind) (base.helloHistory kind))
    (paired : base.lastIhuMs = none → base.lastIhuCost = none)
    (cost : NeighborMetric.transmitCost base.metric = base.lastIhuCost.getD INFINITY)
    (ihu : ∀ last, base.lastIhuMs = some last → heard.ihu key = some ⟨base.ihuIntervalCs, last⟩) :
    Tuned (heard.noteHello key now (.hello unicast seqno intervalCs subTlvs)) key
      (base.armHelloTimer unicast intervalCs now) := by
  have noted : heard.noteHello key now (.hello unicast seqno intervalCs subTlvs) =
      { heard with
        hello := fun named kind =>
          if named = key ∧ kind = unicast then some ⟨intervalCs, now⟩ else heard.hello named kind } :=
    if_neg scheduled
  have frame : ∀ {α : Type} (field : Neighbor M → α), (∀ timer, field { base with
      unicastTimer := timer } = field base) → (∀ timer, field { base with
      multicastTimer := timer } = field base) →
      field (base.armHelloTimer unicast intervalCs now) = field base := by
    intro α field ofUnicast ofMulticast
    simp only [Neighbor.armHelloTimer, if_neg scheduled]
    split
    · exact ofUnicast _
    · exact ofMulticast _
  rw [noted]
  refine ⟨fun kind => ?_, ?_, ?_, ?_⟩
  · rw [Neighbor.helloTimer_armHelloTimer scheduled,
      frame (fun neighbour => neighbour.helloHistory kind) (fun _ => rfl) (fun _ => rfl)]
    by_cases same : kind = unicast
    · subst same
      rw [if_pos rfl, recorded]
      simp only [and_self, if_true]
      exact Clocked.started roomy scheduled history seqno
    · simp only [same, and_false, if_false]
      exact other kind same
  · rw [frame Neighbor.lastIhuMs (fun _ => rfl) (fun _ => rfl),
      frame Neighbor.lastIhuCost (fun _ => rfl) (fun _ => rfl)]
    exact paired
  · rw [frame Neighbor.metric (fun _ => rfl) (fun _ => rfl),
      frame Neighbor.lastIhuCost (fun _ => rfl) (fun _ => rfl)]
    exact cost
  · rw [frame Neighbor.lastIhuMs (fun _ => rfl) (fun _ => rfl),
      frame Neighbor.ihuIntervalCs (fun _ => rfl) (fun _ => rfl)]
    exact ihu

theorem receiveRoutes_attested (order : HashOrder) (neighbour : NeighborKey) (tlvs : List Tlv)
    (routesChanged : Bool) (attested : Attested heard s) :
    Attested (noteUpdates order neighbour now tlvs ⟨s, routesChanged, .empty⟩ heard)
      (receiveRoutes order neighbour now tlvs routesChanged s).1 := by
  have announced : ∀ (keys : List RouteKey) (u : Engine P M),
      Retains u (forEach keys (announceRouterIdChange now) u).1 := fun keys u =>
    outputs_retains (utterances_outputs
      (announceRouterIdChanges_utters keys u : Steps (Utterance false now) u _ _))
  have processed : Attested (noteUpdates order neighbour now tlvs ⟨s, routesChanged, .empty⟩ heard)
      (forEach tlvs (receiveTlv order neighbour now) ⟨s, routesChanged, .empty⟩).1.engine :=
    receiveTlvs_attested order neighbour tlvs attested
  exact (processed.retain (when_reselects order _ _).retains).retain (announced _ _)

variable [MetricProfile P M]

section Receive
variable {interface : InterfaceName} {source : IpAddr} {packet : Packet} {state : InterfaceState P}
  {s : Engine P M} (up : s.interfaces.get? interface = some state)
include up

theorem receive_dropped (order : HashOrder) (now : UInt64) (receiveTimestamp : UInt32)
    (dropped : s.drops state ⟨interface, source⟩ packet = true) :
    ∃ rejections, (receive order interface source packet now receiveTimestamp s).1 =
      { s with rejections := rejections } := by
  simp only [receive, up]
  split
  next => exact ⟨s.rejections, rfl⟩
  next family =>
    split
    next => exact ⟨_, rfl⟩
    next room => exact absurd dropped (by simp only [drops, Bool.or_eq_true, not_or]; exact ⟨family, room⟩)

theorem receive_processed (order : HashOrder) (now : UInt64) (receiveTimestamp : UInt32)
    (kept : s.drops state ⟨interface, source⟩ packet = false) :
    (receive order interface source packet now receiveTimestamp s).1 =
      (receiveRoutes order ⟨interface, source⟩ now packet.tlvs
        (s.heardPacket state ⟨interface, source⟩ packet now receiveTimestamp).routesChanged
        (s.heardPacket state ⟨interface, source⟩ packet now receiveTimestamp).engine).1 := by
  obtain ⟨family, room⟩ := Bool.or_eq_false_iff.mp kept
  simp only [receive, up, family, room, Bool.false_eq_true, if_false]
  rfl

omit [NeighborMetric M] [MetricProfile P M] in
/-- The packets of a known neighbour are processed. -/
theorem unknown_of_drops (housed : Housed s)
    (dropped : s.drops state ⟨interface, source⟩ packet = true) :
    s.neighbours.containsKey ⟨interface, source⟩ = false := by
  by_contra known
  rw [Bool.not_eq_false] at known
  obtain ⟨link, here, family⟩ := housed ⟨interface, source⟩ known
  rw [get?_links, up] at here
  cases here
  simp [drops, known, family] at dropped

end Receive

theorem hear_unreceived (plain : event.received = none) (order : HashOrder) (s : Engine P M)
    (heard : Heard) : s.hear order event heard = heard := by
  cases event with
  | packetReceived _ _ _ _ => cases plain
  | packetReceivedWithTimestamp _ _ _ _ _ => cases plain
  | _ => rfl

variable [IhuGated P M]

theorem fresh_tuned (heard : Heard) (profile : P) (key : NeighborKey) (helloIntervalCs : UInt16)
    (now : UInt64) : Tuned heard key (Neighbor.fresh profile key helloIntervalCs now) where
  clocked unicast := by cases unicast <;> rfl
  paired _ := rfl
  cost := IhuGated.transmitCost_newNeighbor profile key.interface
  ihu _ absent := by cases absent

/-- The record of one Hello, for its sender. -/
theorem onHelloTlv_tuned (roomy : Roomy now) (profile : P) (helloIntervalCs : UInt16)
    (receiveTimestamp : UInt32) (unicast : Bool) (seqno intervalCs : UInt16) (subTlvs : List SubTlv)
    {existing : Option (Neighbor M)}
    (tuned : ∀ neighbour, existing = some neighbour → Tuned heard key neighbour) :
    Tuned (heard.noteHello key now (.hello unicast seqno intervalCs subTlvs)) key
      (Neighbor.onHelloTlv profile key helloIntervalCs receiveTimestamp now unicast seqno intervalCs
        subTlvs existing).1 := by
  have known : Tuned heard key
      (existing.getD (Neighbor.fresh profile key helloIntervalCs now)) := by
    cases existing with
    | none => exact fresh_tuned heard profile key helloIntervalCs now
    | some neighbour => exact tuned neighbour rfl
  have greeted : ∀ (metric : M) (histories : HelloHistories),
      NeighborMetric.transmitCost (NeighborMetric.onHello metric histories) =
        NeighborMetric.transmitCost metric := IhuGated.transmitCost_onHello P
  simp only [Neighbor.onHelloTlv]
  generalize existing.getD (Neighbor.fresh profile key helloIntervalCs now) = neighbour at known ⊢
  -- The timestamps are not part of what was heard.
  apply Tuned.congr
  · split
    · exact rfl
    · exact rfl
  by_cases unscheduled : intervalCs = 0
  · -- An unscheduled Hello leaves histories and timers alone.
    simp only [Heard.noteHello, Neighbor.armHelloTimer, if_pos unscheduled, Bool.false_eq_true, if_false]
    exact ⟨known.clocked, known.paired, (greeted _ _).trans known.cost, known.ihu⟩
  · simp only [if_neg unscheduled]
    split
    next =>
      refine armHelloTimer_tuned roomy unscheduled subTlvs
        ((Neighbor.helloHistory_restart profile key unicast seqno now
          (neighbour.recordHello unicast seqno).1 unicast).trans (if_pos rfl))
        (fun kind apart => ?_) (fun _ => rfl)
        ((greeted _ _).trans (IhuGated.transmitCost_newNeighbor profile key.interface))
        (fun _ absent => by cases absent)
      cases unicast <;> cases kind <;> first | exact absurd rfl apart | rfl
    next =>
      refine armHelloTimer_tuned roomy unscheduled subTlvs
        ((neighbour.helloHistory_recordHello unicast seqno unicast).trans (if_pos rfl))
        (fun kind apart => ?_) ?_ ((greeted _ _).trans ?_) ?_
      · have recorded := neighbour.helloHistory_recordHello unicast seqno kind
        rw [if_neg apart] at recorded
        have kept := neighbour.recordHello_kept (fun state => state.helloTimer kind) unicast seqno
          fun _ => rfl
        have clocked := known.clocked kind
        rw [← recorded, ← kept] at clocked
        exact clocked
      · rw [neighbour.recordHello_kept Neighbor.lastIhuMs unicast seqno fun _ => rfl,
          neighbour.recordHello_kept Neighbor.lastIhuCost unicast seqno fun _ => rfl]
        exact known.paired
      · rw [neighbour.recordHello_kept Neighbor.metric unicast seqno fun _ => rfl,
          neighbour.recordHello_kept Neighbor.lastIhuCost unicast seqno fun _ => rfl]
        exact known.cost
      · rw [neighbour.recordHello_kept Neighbor.lastIhuMs unicast seqno fun _ => rfl,
          neighbour.recordHello_kept Neighbor.ihuIntervalCs unicast seqno fun _ => rfl]
        exact known.ihu

theorem observeHellos_attested (roomy : Roomy now) (profile : P) (neighbour : NeighborKey)
    (helloIntervalCs : UInt16) (receiveTimestamp : UInt32) (tlvs : List Tlv)
    (attested : Attested heard s) :
    Attested (tlvs.foldl (Heard.noteHello neighbour now) heard)
      (s.observeHellos profile neighbour helloIntervalCs receiveTimestamp now tlvs).1 := by
  refine List.foldl_rel (r := fun heard (state : Engine P M × Bool) => Attested heard state.1)
    attested fun tlv _ heard state attested => ?_
  cases tlv with
  | hello unicast seqno intervalCs subTlvs =>
    have agrees := agrees_noteHello neighbour now heard (.hello unicast seqno intervalCs subTlvs)
    refine ⟨fun key known found => ?_, fun entry candidate found => ?_⟩
    · simp only [AssocMap.get?_insert] at found
      split at found
      next same =>
        subst same
        cases found
        exact onHelloTlv_tuned roomy profile helloIntervalCs receiveTimestamp unicast seqno
          intervalCs subTlvs (attested.tuned neighbour)
      next apart => exact (attested.tuned key known found).agree agrees (Ne.symm apart)
    · rw [agrees.update]
      exact attested.dated entry candidate found
  | _ => exact attested

theorem observeRtt_attested (profile : P) (neighbour : NeighborKey) (sample : Option UInt32)
    (now : UInt64) (attested : Attested heard s) :
    Attested heard (s.observeRtt profile neighbour sample now) := by
  unfold observeRtt
  split
  · exact attested
  · split
    · refine ⟨fun key known found => ?_, attested.dated⟩
      simp only [AssocMap.get?_modify, Option.map_eq_some_iff] at found
      obtain ⟨old, stored, rfl⟩ := found
      have tuned := attested.tuned key old stored
      split
      · exact ⟨tuned.clocked, tuned.paired,
          (IhuGated.transmitCost_onRttSample P _ _ _).trans tuned.cost, tuned.ihu⟩
      · exact tuned
    · exact attested

theorem observeIhus_attested (neighbour : NeighborKey) (localAddresses : List IpAddr) (now : UInt64)
    (tlvs : List Tlv) (attested : Attested heard s) :
    Attested (tlvs.foldl (Heard.noteIhu neighbour localAddresses now) heard)
      (s.observeIhus neighbour localAddresses now tlvs) := by
  refine List.foldl_rel (r := Attested) attested fun tlv _ heard state attested => ?_
  cases tlv with
  | ihu address rxcost intervalCs subTlvs =>
    simp only [Heard.noteIhu]
    split
    next applies =>
      refine ⟨fun key known found => ?_, attested.dated⟩
      simp only [AssocMap.get?_modify, Option.map_eq_some_iff] at found
      obtain ⟨old, stored, rfl⟩ := found
      have tuned := attested.tuned key old stored
      split
      next same =>
        refine ⟨tuned.clocked, (fun absent => by cases absent),
          IhuGated.transmitCost_onIhu P old.metric rxcost, fun last heardNow => ?_⟩
        cases heardNow
        exact if_pos same
      next apart =>
        exact ⟨tuned.clocked, tuned.paired, tuned.cost,
          fun last heardThen => (if_neg apart).trans (tuned.ihu last heardThen)⟩
    next => exact attested
  | _ => exact attested

/-! ## Silent moves -/

/-- The silent changes of a tick, and of a changed policy. -/
theorem Silent.attested (roomy : Roomy now) (silent : Silent now s t) (attested : Attested heard s)
    : Attested heard t := by
  cases silent with
  | aged =>
    refine ⟨fun key known found => ?_, attested.dated⟩
    simp only [ageNeighbours, AssocMap.get?_mapValues, Option.map_eq_some_iff] at found
    obtain ⟨old, stored, rfl⟩ := found
    have tuned := attested.tuned key old stored
    refine ⟨fun unicast => ?_, tuned.paired, (IhuGated.transmitCost_onHello P _ _).trans tuned.cost,
      tuned.ihu⟩
    have advanced := ((tuned.clocked unicast).advance roomy).1
    cases unicast <;> exact advanced
  | silenced =>
    refine attested.retain ⟨fun key known found => ?_, fun entry candidate found finite => ?_⟩
    · simp only [dropSilentNeighbours, AssocMap.get?_retain, Option.filter_eq_some_iff] at found
      exact ⟨known, found.1, rfl⟩
    · simp only [dropSilentNeighbours, AssocMap.get?_retain, Option.filter_eq_some_iff] at found
      exact ⟨candidate, found.1, finite, rfl, rfl⟩
  | unheard =>
    refine ⟨fun key known found => ?_, attested.dated⟩
    simp only [expireIhus, AssocMap.get?_mapValues, Option.map_eq_some_iff] at found
    obtain ⟨old, stored, rfl⟩ := found
    have tuned := attested.tuned key old stored
    split
    · exact ⟨tuned.clocked, fun _ => rfl, IhuGated.transmitCost_onIhu P _ _,
        (fun last absent => by cases absent)⟩
    · exact tuned
  | expired =>
    refine attested.retain ⟨fun key known found => ?_, fun entry candidate found finite => ?_⟩
    · simp only [expireCandidates, AssocMap.get?_mapValues, Option.map_eq_some_iff] at found
      obtain ⟨old, stored, rfl⟩ := found
      exact ⟨old, stored, rfl⟩
    · simp only [expireCandidates, AssocMap.get?_mapValues, AssocMap.get?_retain,
        Option.map_eq_some_iff, Option.filter_eq_some_iff] at found
      obtain ⟨old, ⟨stored, _⟩, rfl⟩ := found
      split at finite
      next => exact absurd rfl finite
      next fresh =>
        rw [if_neg fresh]
        exact ⟨old, stored, finite, rfl, rfl⟩
  | refreshed order =>
    exact attested.retain (requestRefreshes_retains order now s)
  | recomputed only => exact attested.retain (recomputeCandidateMetrics_retains only s)
  | reset interface policy =>
    refine ⟨fun key known found => ?_, attested.dated⟩
    simp only [AssocMap.get?_mapValues, Option.map_eq_some_iff] at found
    obtain ⟨old, stored, rfl⟩ := found
    have tuned := attested.tuned key old stored
    split
    · refine ⟨tuned.clocked, tuned.paired, ?_, tuned.ihu⟩
      have greeted : NeighborMetric.transmitCost (NeighborMetric.onHello
          (MetricProfile.newNeighbor policy.metric interface) old.histories) = INFINITY :=
        (IhuGated.transmitCost_onHello P _ old.histories).trans
          (IhuGated.transmitCost_newNeighbor policy.metric interface)
      simp only [resetNeighbour]
      cases old.lastIhuCost with
      | none => exact greeted
      | some cost => exact IhuGated.transmitCost_onIhu P _ cost
    · exact tuned

/-! ## Packets -/

theorem heardPacket_attested (roomy : Roomy now) (state : InterfaceState P)
    (neighbour : NeighborKey) (packet : Packet) (receiveTimestamp : UInt32)
    (attested : Attested heard s) :
    Attested (packet.tlvs.foldl (Heard.noteIhu neighbour state.localAddresses now)
        (packet.tlvs.foldl (Heard.noteHello neighbour now) heard))
      (s.heardPacket state neighbour packet now receiveTimestamp).engine := by
  have replied : ∀ (due : Bool) (u : Engine P M),
      Retains u (when (fun _ => due) (ihuAction neighbour now none) u).1 := fun due u =>
    outputs_retains (utterances_outputs
      (dueIhu_utters neighbour due u : Steps (Utterance false now) u _ _))
  refine Attested.retain ?_ (replied _ _)
  have observed := observeIhus_attested neighbour state.localAddresses now packet.tlvs
    (observeRtt_attested state.policy.metric neighbour
      (packet.rttSample state.localAddresses receiveTimestamp) now
      (observeHellos_attested roomy state.policy.metric neighbour state.policy.helloIntervalCs
        receiveTimestamp packet.tlvs attested))
  simp only [observe]
  split
  · exact observed.retain (recomputeCandidateMetrics_retains _ _)
  · exact observed

theorem receive_attested (roomy : Roomy now) (order : HashOrder) (interface : InterfaceName)
    (source : IpAddr) (packet : Packet) (receiveTimestamp : UInt32) (housed : Housed s)
    (attested : Attested heard s) :
    Attested (hearPacket order ⟨interface, source⟩ packet now receiveTimestamp s heard)
      (receive order interface source packet now receiveTimestamp s).1 := by
  have greeted : Agrees ⟨interface, source⟩ heard
      (packet.tlvs.foldl (Heard.noteHello ⟨interface, source⟩ now) heard) :=
    agrees_foldl (agrees_noteHello ⟨interface, source⟩ now) packet.tlvs heard
  unfold hearPacket
  cases up : s.interfaces.get? interface with
  | none =>
    simp only [receive, up]
    refine attested.agree greeted ?_
    by_contra known
    obtain ⟨link, here, _⟩ := housed ⟨interface, source⟩ (by simpa using known)
    rw [get?_links, up] at here
    cases here
  | some state =>
    dsimp only
    cases dropped : s.drops state ⟨interface, source⟩ packet with
    | true =>
      obtain ⟨rejections, same⟩ := receive_dropped up order now receiveTimestamp dropped
      rw [same, if_pos rfl]
      have confirmed := greeted.trans (agrees_foldl (agrees_noteIhu ⟨interface, source⟩
        state.localAddresses now) packet.tlvs _)
      have known := attested.agree confirmed (unknown_of_drops up housed dropped)
      exact ⟨known.tuned, known.dated⟩
    | false =>
      rw [receive_processed up order now receiveTimestamp dropped, if_neg Bool.false_ne_true]
      exact receiveRoutes_attested order _ packet.tlvs _
        (heardPacket_attested roomy state _ packet receiveTimestamp attested)

/-! ## Runs -/

theorem moves_attested (plain : event.received = none) (roomy : Roomy event.now) (heard : Heard) :
    Moves event fun (s : Engine P M) (_ : List Action) t => Attested heard s → Attested heard t where
  prelude := by
    intro s t actions prelude attested
    cases prelude with
    | sensed silent => exact silent.attested roomy attested
    | collected => exact ⟨attested.tuned, attested.dated⟩
    | invalidated => exact attested
  reselects reselects attested := attested.retain reselects.retains
  output output attested := attested.retain output.retains
  observation received := by cases plain.symm.trans received
  tlv received := by cases plain.symm.trans received

theorem handleValidated_attested (order : HashOrder) (event : Event P) (roomy : Roomy event.now)
    (housed : Housed s) (attested : Attested heard s) :
    Attested (s.hear order event heard) (handleValidated order event s).1 := by
  cases received : event.received with
  | none =>
    rw [hear_unreceived received]
    obtain ⟨start, change, kept⟩ := (handleValidated_dispatched order event s).fold
      (keeps_chains (Attested heard)) (moves_attested received roomy heard)
      fun _ => fun edit attested => attested.retain edit.retains
    exact kept (attested.retain change.retains)
  | some heardFrom =>
    cases event with
    | packetReceived interface source packet now =>
      exact receive_attested roomy order interface source packet _ housed attested
    | packetReceivedWithTimestamp interface source packet now timestamp =>
      exact receive_attested roomy order interface source packet timestamp housed attested
    | _ => cases received

end Metric

end Engine

end BabelRs
