import BabelRs.Lib.Run
import BabelRs.Safety.Packet

/-!
# Runs of the engine

A run starts from a validated configuration and handles events one after the
other, each under an arbitrary enumeration order of the hash tables.  A rejected
event changes nothing, so it is no step.  `allowed` restricts the steps; it reads
the state before the event and the event.
-/

set_option autoImplicit false

namespace BabelRs

open Lib

namespace Engine

variable {P M : Type} [NeighborMetric M] [MetricProfile P M]
variable {s t : Engine P M}

def Starts (s : Engine P M) : Prop := ∃ config, tryNew config = .ok s

def Step (allowed : Engine P M → Event P → Bool) (s : Engine P M) (event : Event P)
    (actions : List Action) (t : Engine P M) : Prop :=
  allowed s event = true ∧ ∃ order, tryHandle order event s = .ok (t, actions)

/-- The runs whose every step is allowed. -/
def RunOf (allowed : Engine P M → Event P → Bool) : List (Event P × List Action) → Engine P M → Prop :=
  Run Starts (Step allowed)

def anyEvent : Engine P M → Event P → Bool := fun _ _ => true

/-- The state that `try_handle` reports once the actions are complete. -/
def noteLifetimes (result : Engine P M × List Action) : Engine P M :=
  { result.1 with advertisedUntil := result.2.foldl noteAction result.1.advertisedUntil }

omit [NeighborMetric M] [MetricProfile P M] in
theorem Starts.eq_initial (starts : Starts s) :
    ∃ config : EngineConfig P, config.validate = .ok () ∧ s = initial config := by
  obtain ⟨config, made⟩ := starts
  cases valid : config.validate with
  | error failure => simp [tryNew, valid, bind, Except.bind] at made
  | ok _ =>
    simp only [tryNew, valid, bind, Except.bind, pure, Except.pure, Except.ok.injEq] at made
    exact ⟨config, valid, made.symm⟩

/-- A handled event was valid, and the state is that of its handler with the
advertised lifetimes noted. -/
theorem tryHandle_ok {order : HashOrder} {event : Event P} {actions : List Action}
    (handled : tryHandle order event s = .ok (t, actions)) :
    event.validate = .ok () ∧ actions = (handleValidated order event s).2 ∧
      t = noteLifetimes (handleValidated order event s) := by
  cases valid : event.validate with
  | error failure => simp [tryHandle, valid, bind, Except.bind] at handled
  | ok _ =>
    simp only [tryHandle, valid, bind, Except.bind, pure, Except.pure, Except.ok.injEq,
      Prod.mk.injEq] at handled
    exact ⟨rfl, handled.2.symm, handled.1.symm⟩

theorem tryHandle_valid (event : Event P) (valid : event.validate = .ok ()) (order : HashOrder)
    (s : Engine P M) :
    tryHandle order event s =
      .ok (noteLifetimes (handleValidated order event s), (handleValidated order event s).2) := by
  simp [tryHandle, valid, bind, Except.bind, pure, Except.pure, noteLifetimes]

/-! ## Executable runs -/

/-- Handle a list of events in storage order; `none` when an event is not allowed
or rejected. -/
def play (allowed : Engine P M → Event P → Bool) :
    List (Event P) → Engine P M → Option (List (Event P × List Action) × Engine P M)
  | [], s => some ([], s)
  | event :: rest, s =>
    if allowed s event then
      match tryHandle HashOrder.stored event s with
      | .error _ => none
      | .ok (t, actions) =>
        (play allowed rest t).map fun later => ((event, actions) :: later.1, later.2)
    else none

theorem play_run {allowed : Engine P M → Event P → Bool} (events : List (Event P))
    {history later : List (Event P × List Action)} (run : RunOf allowed history s)
    (played : play allowed events s = some (later, t)) :
    RunOf allowed (history ++ later) t := by
  induction events generalizing history s later with
  | nil =>
    simp only [play, Option.some.injEq, Prod.mk.injEq] at played
    rw [← played.1, ← played.2, List.append_nil]
    exact run
  | cons event rest ih =>
    simp only [play] at played
    split at played
    next permitted =>
      split at played
      next => cases played
      next next actions handled =>
        obtain ⟨⟨tail, final⟩, continued, same⟩ := Option.map_eq_some_iff.mp played
        obtain ⟨rfl, rfl⟩ := Prod.mk.inj same
        have stepped : RunOf allowed (history ++ [(event, actions)]) next :=
          .step run ⟨permitted, _, handled⟩
        have finished := ih stepped continued
        simpa using finished
    next => cases played

theorem run_of_play {allowed : Engine P M → Event P → Bool} {config : EngineConfig P}
    {events : List (Event P)} {history : List (Event P × List Action)}
    (valid : config.validate = .ok ())
    (played : play allowed events (initial config) = some (history, t)) :
    RunOf allowed history t := by
  have starts : Starts (initial config : Engine P M) :=
    ⟨config, by simp [tryNew, valid, bind, Except.bind, pure, Except.pure]⟩
  have run : RunOf allowed ([] ++ history) t := play_run events (.start starts) played
  exact run

theorem run_of_checked_play (allowed : Engine P M → Event P → Bool) (config : EngineConfig P)
    (events : List (Event P)) (holds : List (Event P × List Action) → Engine P M → Prop)
    [∀ history engine, Decidable (holds history engine)] (valid : config.validate = .ok ())
    (passed : ((play allowed events (initial config)).any fun outcome =>
      decide (holds outcome.1 outcome.2)) = true) :
    ∃ history engine, RunOf allowed history engine ∧ holds history engine := by
  obtain ⟨⟨history, engine⟩, played, checked⟩ := (Option.any_eq_true _ _).mp passed
  exact ⟨history, engine, run_of_play valid played, of_decide_eq_true checked⟩

theorem step_of_checked_play (allowed : Engine P M → Event P → Bool) (config : EngineConfig P)
    (events : List (Event P)) (event : Event P)
    (holds : Engine P M → List Action → Engine P M → Prop)
    [∀ before actions after, Decidable (holds before actions after)]
    (valid : config.validate = .ok ())
    (passed : ((play allowed events (initial config)).any fun outcome =>
      allowed outcome.2 event &&
        match tryHandle HashOrder.stored event outcome.2 with
        | .error _ => false
        | .ok result => decide (holds outcome.2 result.2 result.1)) = true) :
    ∃ history before after actions, RunOf allowed history before ∧
      Step allowed before event actions after ∧ holds before actions after := by
  obtain ⟨⟨history, before⟩, played, checked⟩ := (Option.any_eq_true _ _).mp passed
  obtain ⟨permitted, checked⟩ := Bool.and_eq_true_iff.mp checked
  split at checked
  next => cases checked
  next result handled =>
    exact ⟨history, before, result.1, result.2, run_of_play valid played,
      ⟨permitted, _, handled⟩, of_decide_eq_true checked⟩

end Engine

/-! ## The conformance harness

The fixed configuration, neighbours and packets of `tests/common/mod.rs`, with
which concrete runs are played. -/

namespace Conformance

abbrev Harness := Engine BuiltinProfile BuiltinNeighbor

instance neZeroNodes : NeZero 254 := ⟨by decide⟩

/-- Small distinct router-ids, numbered from one. -/
def nodeId (value : Fin 254) : RouterId where
  octets := BitVec.ofNat 64 (value.val + 1)
  notZero := by
    intro zero
    have same := congrArg BitVec.toNat zero
    rw [BitVec.toNat_ofNat, Nat.mod_eq_of_lt (by omega)] at same
    exact Nat.succ_ne_zero _ same
  notOnes := by
    intro ones
    have same := congrArg BitVec.toNat ones
    rw [BitVec.toNat_ofNat, Nat.mod_eq_of_lt (by omega), BitVec.toNat_allOnes] at same
    omega

def link (number : UInt8) : InterfaceName := ⟨[number]⟩

/-- The link-local address `fe80::number`. -/
def address (number : BitVec 128) : IpAddr := .v6 (0xfe800000000000000000000000000000 + number)

/-- `2001:db8::/64` without a source prefix. -/
def destination : RouteKey := ⟨.v6 0x20010db8000000000000000000000000 64, none⟩

def wired (nominalCost : UInt16) (positive : 0 < nominalCost) (finite : nominalCost < INFINITY) :
    BuiltinProfile :=
  .wired ⟨nominalCost, 1, 1, positive, finite, by decide, by decide, by decide⟩

def harness (routerId : RouterId) : EngineConfig BuiltinProfile :=
  { EngineConfig.recommended routerId with
    metric := wired 96 WiredMetric.default.costPositive WiredMetric.default.costFinite
    sequenceNumber := 7
    routeSelection := ⟨0, 0, 0⟩ }

def greeting (cost : UInt16) : List Tlv :=
  [.hello false 1 400 [], .ihu none cost 1200 []]

def routeUpdate (key : RouteKey) (source : IpAddr) (routerId : RouterId) (seqno metric : UInt16) : Tlv :=
  .update
    { key := some key
      routerId := some routerId
      nextHop := if metric = INFINITY then none else some source
      intervalCs := 1600
      seqno := seqno
      metric := metric
      v4ViaV6 := false
      subTlvs := [] }

def packet (interface : InterfaceName) (source : IpAddr) (tlvs : List Tlv) (now : UInt64) :
    Event BuiltinProfile :=
  .packetReceived interface source ⟨tlvs⟩ now

end Conformance

end BabelRs
