import BabelRs.Safety.CoherentRun
import BabelRs.Safety.Hearing

/-!
# No stale state survives a tick

A tick leaves no neighbour whose histories ran empty, no IHU and no finite candidate past
its time.  With the record of the run this dates the latest Hello, IHU and Update behind
every neighbour, link and route.
-/

set_option autoImplicit false

namespace BabelRs

open Lib

namespace Engine

variable {P M : Type} [NeighborMetric M] [MetricProfile P M]
variable {s t : Engine P M} {now : UInt64} {history : List (Event P × List Action)}

/-! ## Runs with their record -/

def HeardStep (before : Engine P M × Heard) (event : Event P) (actions : List Action)
    (after : Engine P M × Heard) : Prop :=
  ∃ order, tryHandle order event before.1 = .ok (after.1, actions) ∧
    after.2 = before.1.hear order event before.2

def HeardRun : List (Event P × List Action) → Engine P M × Heard → Prop :=
  Run (fun start => Starts start.1 ∧ start.2 = Heard.nothing) HeardStep

theorem RunOf.heard (run : RunOf anyEvent history s) : ∃ heard, HeardRun history (s, heard) := by
  refine run.invariant (fun history s => ∃ heard, HeardRun history (s, heard)) ?_ ?_
  · exact fun s starts => ⟨Heard.nothing, .start ⟨starts, rfl⟩⟩
  · rintro history s event actions t ⟨heard, before⟩ ⟨_, order, handled⟩
    exact ⟨s.hear order event heard, .step before ⟨order, handled, rfl⟩⟩

theorem HeardRun.run {state : Engine P M × Heard} (run : HeardRun history state) :
    RunOf anyEvent history state.1 := by
  refine Run.invariant (fun history state => RunOf anyEvent history state.1) ?_ ?_ run
  · exact fun state starts => .start starts.1
  · rintro history state event actions after before ⟨order, handled, _⟩
    exact .step before ⟨rfl, order, handled⟩

/-- No clock value of the history comes near the end of `u64`. -/
def ClockRoomy (history : List (Event P × List Action)) : Prop :=
  ∀ step ∈ history, Roomy step.1.now

theorem HeardRun.attested [IhuGated P M] {state : Engine P M × Heard} (run : HeardRun history state)
    (roomy : ClockRoomy history) :
    Attested state.2 state.1 := by
  have both : RunOf anyEvent history state.1 ∧ (ClockRoomy history → Attested state.2 state.1) := by
    refine Run.invariant (fun history state => RunOf anyEvent history state.1 ∧
      (ClockRoomy history → Attested state.2 state.1)) ?_ ?_ run
    · intro state starts
      refine ⟨.start starts.1, fun _ => ?_⟩
      obtain ⟨config, _, initial⟩ := starts.1.eq_initial
      rw [initial]
      refine ⟨fun key known found => ?_, fun entry candidate found => ?_⟩
      · cases found
      · cases found
    · rintro history state event actions after ⟨before, attested⟩ ⟨order, handled, heard⟩
      refine ⟨.step before ⟨rfl, order, handled⟩, fun roomy => ?_⟩
      have earlier := attested fun step member => roomy step (List.mem_append_left _ member)
      have now : Roomy event.now := roomy (event, actions) (by simp)
      obtain ⟨_, _, same⟩ := tryHandle_ok handled
      have later := handleValidated_attested order event now before.housed earlier
      rw [heard, same]
      exact ⟨later.tuned, later.dated⟩
  exact both.2 roomy

/-! ## What a tick leaves -/

structure FreshNeighbour (now : UInt64) (neighbour : Neighbor M) : Prop where
  ahead : ∀ unicast timer, neighbour.helloTimer unicast = some timer → now < timer.nextExpiryMs
  audible : ∃ unicast, (neighbour.helloHistory unicast).bits ≠ 0
  confirmed : ∀ last, neighbour.lastIhuMs = some last →
    now ≤ satAdd last (neighbour.ihuIntervalCs.toUInt64 * 35)

structure Fresh (now : UInt64) (s : Engine P M) : Prop where
  neighbours : ∀ key neighbour, s.neighbours.get? key = some neighbour → FreshNeighbour now neighbour
  candidates : ∀ entry candidate, s.candidates.get? entry = some candidate →
    candidate.advertisedMetric ≠ INFINITY → now ≤ candidate.expiresMs

variable {neighbour : Neighbor M}

omit [NeighborMetric M] [MetricProfile P M] in
theorem FreshNeighbour.congr {old : Neighbor M} (same : hearing neighbour = hearing old)
    (fresh : FreshNeighbour now old) :
    FreshNeighbour now neighbour := by
  simp only [hearing, Prod.mk.injEq] at same
  obtain ⟨histories, multicast, unicast, lastIhuMs, _, ihuIntervalCs, _⟩ := same
  obtain ⟨ahead, audible, confirmed⟩ := fresh
  refine ⟨?_, ?_, ?_⟩
  · simpa only [Neighbor.helloTimer, multicast, unicast] using ahead
  · simpa only [Neighbor.helloHistory, histories] using audible
  · rw [lastIhuMs, ihuIntervalCs]
    exact confirmed

omit [NeighborMetric M] [MetricProfile P M] in
theorem Fresh.retain (fresh : Fresh now s) (retains : Retains s t) : Fresh now t where
  neighbours key neighbour found := by
    obtain ⟨old, stored, same⟩ := retains.neighbours key neighbour found
    exact (fresh.neighbours key old stored).congr same
  candidates entry candidate found finite := by
    obtain ⟨old, stored, was, _, expiry⟩ := retains.candidates entry candidate found finite
    rw [expiry]
    exact fresh.candidates entry old stored was

variable {heard : Heard} {key : NeighborKey}

omit [MetricProfile P M] in
/-- A neighbour after its Hello timers were advanced and its overdue IHU forgotten. -/
theorem freshNeighbour_of_age (roomy : Roomy now) {old : Neighbor M} (tuned : Tuned heard key old)
    (audible : ((old.age now).1).silent = false) :
    FreshNeighbour now
      (if ((old.age now).1).ihuOverdue now then ((old.age now).1).loseIhu else (old.age now).1) := by
  have ahead : ∀ unicast timer, ((old.age now).1).helloTimer unicast = some timer →
      now < timer.nextExpiryMs := by
    intro unicast timer armed
    have advanced := ((tuned.clocked unicast).advance roomy).2 timer
    cases unicast <;> exact advanced armed
  have filled : ∃ unicast, (((old.age now).1).helloHistory unicast).bits ≠ 0 := by
    rcases Bool.and_eq_false_iff.mp audible with multicast | unicast
    · exact ⟨false, by simpa [Neighbor.helloHistory, HelloHistory.isEmpty] using multicast⟩
    · exact ⟨true, by simpa [Neighbor.helloHistory, HelloHistory.isEmpty] using unicast⟩
  split
  next => exact ⟨ahead, filled, fun last absent => by cases absent⟩
  next timely =>
    refine ⟨ahead, filled, fun last heardThen => ?_⟩
    simpa [Neighbor.ihuOverdue, heardThen] using timely

omit [MetricProfile P M] in
theorem ageState_fresh (roomy : Roomy now) (order : HashOrder) (attested : Attested heard s) :
    Fresh now (s.ageState order now).engine := by
  have recomputed : ∀ (keys : List NeighborKey) (u : Engine P M), Retains u (u.recomputeEach keys).1 := by
    intro keys u
    refine List.foldlRecOn (motive := fun state : Engine P M × Bool => Retains u state.1) keys _
      (Retains.refl u) ?_
    exact fun state kept key _ => kept.trans (recomputeCandidateMetrics_retains (some key) state.1)
  refine Fresh.retain ?_ (recomputed _ _)
  refine Fresh.retain (Fresh.retain ?_ (requestRefreshes_retains order now _))
    (.of_adjacencies rfl fun _ => rfl)
  refine ⟨fun key neighbour found => ?_, fun entry candidate found finite => ?_⟩
  · simp only [expireCandidates, expireIhus, dropSilentNeighbours, ageNeighbours,
      AssocMap.get?_mapValues, AssocMap.get?_retain, Option.map_eq_some_iff,
      Option.filter_eq_some_iff] at found
    obtain ⟨_, ⟨_, ⟨⟨old, stored, rfl⟩, audible⟩, rfl⟩, rfl⟩ := found
    have fresh := freshNeighbour_of_age roomy (attested.tuned key old stored) (by simpa using audible)
    refine FreshNeighbour.congr ?_ fresh
    rfl
  · simp only [expireCandidates, AssocMap.get?_mapValues, AssocMap.get?_retain,
      Option.map_eq_some_iff, Option.filter_eq_some_iff] at found
    obtain ⟨old, _, rfl⟩ := found
    split at finite
    next => exact absurd rfl finite
    next timely =>
      rw [if_neg timely]
      simpa [expiredCandidate] using timely

theorem tick_fresh (roomy : Roomy now) (order : HashOrder) (attested : Attested heard s) :
    Fresh now (tick order now s).1 := by
  obtain ⟨_, chosen, _, reselects, reports, _⟩ := tickSettled_parts order now s
  have sent : Retains (s.tickSettled order now).1 (tick order now s).1 :=
    outputs_retains (utterances_outputs (tickOutput_utters order s _))
  exact (((ageState_fresh roomy order attested).retain reselects.retains).retain
    (outputs_retains (conclusions_outputs (reports true)))).retain sent

/-! ## The dates behind a tick -/

theorem within_lifetime {received : UInt64} {intervalCs : UInt16}
    (timely : now ≤ satAdd received (intervalCs.toUInt64 * 35)) :
    now.toNat ≤ received.toNat + 35 * intervalCs.toNat := by
  have bound := intervalCs.toNat_lt
  have product : (intervalCs.toUInt64 * 35).toNat = 35 * intervalCs.toNat := by
    change intervalCs.toNat * 35 % 2 ^ 64 = _
    omega
  rw [UInt64.le_iff_toNat_le, toNat_satAdd, product] at timely
  omega

/-- The latest scheduled Hello of one kind came less than 165 intervals of a centisecond
before `now`: 1.5 Hello intervals, and 15 more until sixteen are missed. -/
def GreetedWithin (heard : Heard) (now : UInt64) (key : NeighborKey) : Prop :=
  ∃ unicast intervalCs received, heard.hello key unicast = some ⟨intervalCs, received⟩ ∧
    intervalCs ≠ 0 ∧ now.toNat < received.toNat + 165 * intervalCs.toNat

/-- The latest applicable IHU came within 3.5 of its intervals. -/
def ConfirmedWithin (heard : Heard) (now : UInt64) (key : NeighborKey) : Prop :=
  ∃ intervalCs received, heard.ihu key = some ⟨intervalCs, received⟩ ∧
    now.toNat ≤ received.toNat + 35 * intervalCs.toNat

/-- The latest stored Update came within 3.5 of its intervals. -/
def UpdatedWithin (heard : Heard) (now : UInt64) (entry : RouteKey × NeighborKey) : Prop :=
  ∃ intervalCs received, heard.update entry = some ⟨intervalCs, received⟩ ∧
    now.toNat ≤ received.toNat + 35 * intervalCs.toNat

section Dates
variable {now : UInt64} {heard : Heard} {s : Engine P M} (attested : Attested heard s)
  (fresh : Fresh now s)
include attested fresh

omit [MetricProfile P M] in
theorem greetedWithin (found : s.neighbours.get? key = some neighbour) :
    GreetedWithin heard now key := by
  have timers := fresh.neighbours key neighbour found
  obtain ⟨unicast, filled⟩ := timers.audible
  have clocked := (attested.tuned key neighbour found).clocked unicast
  cases armed : neighbour.helloTimer unicast with
  | none =>
    rw [armed] at clocked
    exact absurd clocked filled
  | some timer =>
    rw [armed] at clocked
    obtain ⟨scheduled, _, received, sighted, monitors⟩ := clocked
    refine ⟨unicast, timer.intervalCs, received, sighted, scheduled, ?_⟩
    have recent := monitors.recent (fun empty => filled (UInt16.toNat_inj.mp empty))
      (neighbour.helloHistory unicast).bits.toNat_lt
      (UInt64.lt_iff_toNat_lt.mp (timers.ahead unicast timer armed))
    omega

theorem confirmedWithin [IhuGated P M] (found : s.neighbours.get? key = some neighbour)
    (usable : NeighborMetric.linkCost neighbour.metric < INFINITY) :
    ConfirmedWithin heard now key := by
  have tuned := attested.tuned key neighbour found
  cases confirmed : neighbour.lastIhuMs with
  | none =>
    have unconfirmed := tuned.cost
    rw [tuned.paired confirmed, Option.getD_none] at unconfirmed
    rw [IhuGated.linkCost_unconfirmed P neighbour.metric unconfirmed] at usable
    exact absurd usable (by decide)
  | some last =>
    exact ⟨neighbour.ihuIntervalCs, last, tuned.ihu last confirmed,
      within_lifetime ((fresh.neighbours key neighbour found).confirmed last confirmed)⟩

omit [MetricProfile P M] in
theorem updatedWithin {entry : RouteKey × NeighborKey} {candidate : Candidate}
    (found : s.candidates.get? entry = some candidate)
    (finite : candidate.advertisedMetric ≠ INFINITY) : UpdatedWithin heard now entry := by
  obtain ⟨received, sighted, expiry⟩ := attested.dated entry candidate found finite
  have timely := fresh.candidates entry candidate found finite
  rw [expiry] at timely
  exact ⟨candidate.intervalCs, received, sighted, within_lifetime timely⟩

end Dates

theorem HeardStep.tick_fresh [IhuGated P M] {before : Heard} {actions : List Action}
    (run : HeardRun history (s, before)) (roomy : ClockRoomy (history ++ [(.tick now, actions)]))
    (ticked : HeardStep (s, before) (.tick now) actions (t, heard)) :
    Attested heard t ∧ Fresh now t := by
  have later : HeardRun (history ++ [(.tick now, actions)]) (t, heard) := .step run ticked
  refine ⟨later.attested roomy, ?_⟩
  obtain ⟨order, handled, _⟩ := ticked
  obtain ⟨_, _, same⟩ := tryHandle_ok handled
  have earlier := run.attested fun step member => roomy step (List.mem_append_left _ member)
  have now : Roomy (Event.now (.tick now : Event P)) := roomy (.tick now, actions) (by simp)
  have fresh := Engine.tick_fresh now order earlier
  rw [show t = noteLifetimes _ from same]
  exact ⟨fresh.neighbours, fresh.candidates⟩

/-- A finite candidate rests on a finite advertisement over a usable link. -/
theorem finite_parts {algebra : MetricAlgebra} {advertised link : UInt16}
    (finite : safeExtend algebra advertised link < INFINITY) :
    advertised ≠ INFINITY ∧ link < INFINITY := by
  have usable : ¬(advertised = INFINITY ∨ link = INFINITY ∨ link = 0) := by
    intro unreachable
    rw [safeExtend, if_pos unreachable] at finite
    exact absurd finite (by decide)
  simp only [not_or] at usable
  refine ⟨usable.1, ?_⟩
  have bound := link.toNat_lt
  have apart : link.toNat ≠ 65535 := fun same => usable.2.1 (UInt16.toNat_inj.mp same)
  change link.toNat < 65535
  omega

/-- After a tick every neighbour has a recent Hello, every link in use a recent IHU,
every finite candidate a recent Update, and every selected route all three. -/
theorem nothing_stale_survives_a_tick {history : List (Event BuiltinProfile × List Action)}
    {s t : Engine BuiltinProfile BuiltinNeighbor} {before heard : Heard} {now : UInt64}
    {actions : List Action} (run : HeardRun history (s, before))
    (ticked : HeardStep (s, before) (.tick now) actions (t, heard))
    (roomy : ClockRoomy (history ++ [(.tick now, actions)])) :
    (∀ key neighbour, t.neighbours.get? key = some neighbour → GreetedWithin heard now key) ∧
      (∀ key neighbour, t.neighbours.get? key = some neighbour →
        NeighborMetric.linkCost neighbour.metric < INFINITY → ConfirmedWithin heard now key) ∧
      (∀ entry candidate, t.candidates.get? entry = some candidate →
        candidate.metric < INFINITY → UpdatedWithin heard now entry) ∧
      ∀ key route, t.selected.get? key = some route →
        ∃ neighbour candidate, t.candidates.get? (key, neighbour) = some candidate ∧
          route = candidate.selected ∧ GreetedWithin heard now neighbour ∧
          ConfirmedWithin heard now neighbour ∧ UpdatedWithin heard now (key, neighbour) := by
  obtain ⟨attested, fresh⟩ := HeardStep.tick_fresh run roomy ticked
  have later : HeardRun (history ++ [(.tick now, actions)]) (t, heard) := .step run ticked
  obtain ⟨filed, settled⟩ := later.run.coherent
  -- What a finite candidate rests on, in the terms of its neighbour.
  have rests : ∀ key neighbour candidate, t.candidates.get? (key, neighbour) = some candidate →
      candidate.metric < INFINITY → candidate.advertisedMetric ≠ INFINITY ∧
        ∃ state, t.neighbours.get? neighbour = some state ∧
          NeighborMetric.linkCost state.metric < INFINITY := by
    intro key neighbour candidate found finite
    obtain ⟨metric, linked⟩ := filed.known key neighbour candidate found
    obtain ⟨state, located, rfl⟩ := Option.map_eq_some_iff.mp linked
    rw [filed.current neighbour key candidate _ found linked] at finite
    obtain ⟨advertised, usable⟩ := finite_parts finite
    exact ⟨advertised, state, located, usable⟩
  refine ⟨fun key neighbour found => greetedWithin attested fresh found,
    fun key neighbour found usable => confirmedWithin attested fresh found usable,
    fun entry candidate found finite =>
      updatedWithin attested fresh found (rests entry.1 entry.2 candidate found finite).1, ?_⟩
  intro key route chosen
  obtain ⟨neighbour, candidate, found, same, finite⟩ := settled.backed key route chosen
  obtain ⟨advertised, state, located, usable⟩ := rests key neighbour candidate found finite
  exact ⟨neighbour, candidate, found, same, greetedWithin attested fresh located,
    confirmedWithin attested fresh located usable, updatedWithin attested fresh found advertised⟩

section Concrete
open Conformance

def learnedRoute : List (Event BuiltinProfile) :=
  [.interfaceUp (link 1) [] 0,
    packet (link 1) (address 2) (greeting 96) 1,
    packet (link 1) (address 2) [routeUpdate destination (address 2) (nodeId 1) 100 0] 2]

/-- A tick five seconds later keeps the route, and what it rests on is recent. -/
theorem route_rests_on_its_packets :
    ∃ (history : List (Event BuiltinProfile × List Action)) (s t : Harness) (before heard : Heard)
      (actions : List Action) (route : SelectedRoute),
      HeardRun history (s, before) ∧ HeardStep (s, before) (.tick 5000) actions (t, heard) ∧
        t.selected.get? destination = some route ∧
        ∃ neighbour candidate, t.candidates.get? (destination, neighbour) = some candidate ∧
          route = candidate.selected ∧ GreetedWithin heard 5000 neighbour ∧
          ConfirmedWithin heard 5000 neighbour ∧
          UpdatedWithin heard 5000 (destination, neighbour) := by
  obtain ⟨history, s, run, checked⟩ := run_of_checked_play anyEvent (harness (nodeId 0)) learnedRoute
    (fun history (engine : Harness) =>
      history.all (fun step => decide (Roomy step.1.now)) &&
        ((noteLifetimes (handleValidated HashOrder.stored (.tick 5000) engine)).selected.get?
          destination).isSome)
    rfl (by decide +kernel)
  obtain ⟨clocks, chosen⟩ := Bool.and_eq_true_iff.mp checked
  obtain ⟨route, selected⟩ := Option.isSome_iff_exists.mp chosen
  obtain ⟨before, heardRun⟩ := run.heard
  have handled := tryHandle_valid (.tick 5000) rfl HashOrder.stored s
  have ticked : HeardStep (s, before) (.tick 5000) _ (_, before) := ⟨_, handled, rfl⟩
  have roomy : ClockRoomy (history ++ [((.tick 5000 : Event BuiltinProfile),
      (handleValidated HashOrder.stored (.tick 5000) s).2)]) := by
    intro step member
    rcases List.mem_append.mp member with earlier | last
    · exact of_decide_eq_true (List.all_eq_true.mp clocks step earlier)
    · rw [List.mem_singleton.mp last]
      exact (by decide : Roomy 5000)
  exact ⟨history, s, _, before, before, _, route, heardRun, ticked, selected,
    (nothing_stale_survives_a_tick heardRun ticked roomy).2.2.2 destination route selected⟩

end Concrete

end Engine

end BabelRs
