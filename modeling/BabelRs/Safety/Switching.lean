import BabelRs.Lib.Hysteresis
import BabelRs.Safety.Reselections

/-!
# Switching hysteresis

For one key, reselection is a damped choice among the identities of the usable
candidates: the maps `pending_switches`, `settling_since` and `settled_routes` are its
memory.  What the memory stands for is told in terms of the calls of `reselect` that a
run makes.
-/

set_option autoImplicit false

namespace BabelRs

open Lib

/-- What route selection compares: router-id, next hop and interface. -/
abbrev Identity := RouterId × IpAddr × InterfaceName

def Candidate.identity (candidate : Candidate) : Identity :=
  (candidate.routerId, candidate.nextHop, candidate.interface)

def SelectedRoute.identity (route : SelectedRoute) : Identity :=
  (route.routerId, route.nextHop, route.interface)

theorem realises_iff {candidate : Candidate} {route : SelectedRoute} :
    candidate.realises route = true ↔ candidate.identity = route.identity := by
  simp only [Candidate.realises, Bool.and_eq_true, beq_iff_eq, Candidate.identity,
    SelectedRoute.identity, Prod.mk.injEq]
  constructor
  · rintro ⟨⟨router, interface⟩, hop⟩
    exact ⟨router.symm, hop.symm, interface.symm⟩
  · rintro ⟨router, hop, interface⟩
    exact ⟨⟨router.symm, interface.symm⟩, hop.symm⟩

theorem sameCandidate_iff {left right : Candidate} :
    left.sameCandidate right = true ↔ left.identity = right.identity := by
  simp [Candidate.sameCandidate, Candidate.identity, and_assoc]

def PendingSwitch.watch (pending : PendingSwitch) : Hysteresis.Watch Identity UInt64 UInt16 where
  alternate := (pending.routerId, pending.nextHop, pending.interface)
  since := pending.sinceMs
  peak := pending.currentPeakMetric

theorem significant_self (metric : UInt16) (config : RouteSelectionConfig) :
    metricImprovementIsSignificant metric metric config = false := by
  simp [metricImprovementIsSignificant]

/-- The damping that a configuration asks for. -/
def RouteSelectionConfig.rule (config : RouteSelectionConfig) : Hysteresis.Rule UInt64 UInt16 where
  waited := fun since now => decide (satSub now since ≥ config.betterForMs)
  clears := fun better worse => metricImprovementIsSignificant better worse config
  peak := max
  clears_self := fun metric => significant_self metric config
  peak_self := fun metric => by simp [max]

/-- Better by both margins, the percentage rounded up. -/
def RouteSelectionConfig.Beats (config : RouteSelectionConfig) (better worse : UInt16) : Prop :=
  better < worse ∧ better.toNat + max config.switchMarginMetric.toNat
    ((worse.toNat * config.switchMarginPercent.toNat + 99) / 100) ≤ worse.toNat

/-- The cap on the percentage is beyond any improvement of a finite metric. -/
theorem beats_of_significant {config : RouteSelectionConfig} {better worse : UInt16}
    (finite : worse < INFINITY)
    (significant : metricImprovementIsSignificant better worse config = true) :
    config.Beats better worse := by
  have bound : worse.toNat < 65535 := UInt16.lt_iff_toNat_lt.mp finite
  simp only [metricImprovementIsSignificant, Bool.and_eq_true, decide_eq_true_eq] at significant
  refine ⟨UInt16.lt_iff_toNat_lt.mpr ?_, ?_⟩ <;> omega

namespace Engine

variable {P M : Type} {now : UInt64}
variable {s t : Engine P M} {key : RouteKey}

/-! ## One key -/

def Selection.memory (key : RouteKey) (before : Option SelectedRoute) (state : Selection) :
    Hysteresis.State Identity UInt64 UInt16 where
  chosen := before.map SelectedRoute.identity
  watch := (state.pendingSwitches.get? key).map PendingSwitch.watch
  since := state.settlingSince.get? key
  settled := state.settledRoutes.containsKey key

section Choice
variable (config : RouteSelectionConfig) (now : UInt64) (key : RouteKey) (state : Selection)

theorem settle_memory (before : Option SelectedRoute) :
    (settle config now key state).1.memory key before =
        (state.memory key before).settle config.rule now ∧
      (settle config now key state).2 =
        ((state.memory key before).settle config.rule now).settled := by
  unfold settle Hysteresis.State.settle
  by_cases settled : state.settledRoutes.containsKey key = true
  · simp [Selection.memory, settled]
  · simp only [Selection.memory, settled, Bool.false_eq_true, if_false]
    by_cases waited : satSub now ((state.settlingSince.get? key).getD now) ≥ config.betterForMs
    · simp [waited, RouteSelectionConfig.rule, AssocMap.containsKey]
    · simp [waited, RouteSelectionConfig.rule, settled]

/-- The round of one key: the first contender that realises the selected route, and the
best contender. -/
def roundOf (now : UInt64) (before : Option SelectedRoute) (contenders : List Candidate) :
    Hysteresis.Round Identity UInt64 UInt16 where
  time := now
  current := (before.bind fun selected =>
    contenders.find? fun route => route.realises selected).map Candidate.metric
  best :=
    match contenders with
    | [] => none
    | first :: rest =>
      some ((Candidate.best first rest).identity, (Candidate.best first rest).metric)

theorem memory_unwatched (route : Option SelectedRoute) :
    Selection.memory key route
        { state with pendingSwitches := state.pendingSwitches.remove key } =
      { state.memory key route with watch := none } := by
  simp [Selection.memory, AssocMap.get?_remove]

theorem memory_watched (route : Option SelectedRoute) (pending : PendingSwitch) :
    Selection.memory key route
        { state with pendingSwitches := state.pendingSwitches.insert key pending } =
      { state.memory key route with watch := some pending.watch } := by
  simp [Selection.memory]

theorem memory_since (route : Option SelectedRoute) (since : UInt64) :
    Selection.memory key route
        { state with settlingSince := state.settlingSince.insert key since } =
      { state.memory key route with since := some since } := by
  simp [Selection.memory]

theorem memory_chosen (before : Option SelectedRoute) (candidate : Candidate) :
    state.memory key (some candidate.selected) =
      { state.memory key before with chosen := some candidate.identity } := rfl

def observed (best current : Candidate) : PendingSwitch :=
  let pending := (state.pendingSwitches.get? key).getD (freshSwitch now best current)
  let pending :=
    if pending.routerId != best.routerId || pending.nextHop != best.nextHop ||
        pending.interface != best.interface then
      freshSwitch now best current
    else pending
  { pending with currentPeakMetric := max pending.currentPeakMetric current.metric }

theorem dwell_eq (best current : Candidate) :
    dwell config now key best current state =
      if metricImprovementIsSignificant current.metric
          (observed now key state best current).currentPeakMetric config then
        ({ state with
            pendingSwitches := state.pendingSwitches.insert key
              { observed now key state best current with
                sinceMs := now, currentPeakMetric := current.metric } }, current)
      else if satSub now (observed now key state best current).sinceMs ≥ config.betterForMs then
        ({ state with pendingSwitches := state.pendingSwitches.remove key }, best)
      else
        ({ state with
            pendingSwitches := state.pendingSwitches.insert key
              (observed now key state best current) }, current) := rfl

theorem observed_watch (before : Option SelectedRoute) (best current : Candidate) :
    (observed now key state best current).watch =
      Hysteresis.observe config.rule now best.identity current.metric
        (state.memory key before).watch := by
  unfold observed Hysteresis.observe Selection.memory
  cases state.pendingSwitches.get? key with
  | none => simp [freshSwitch, PendingSwitch.watch, Candidate.identity, RouteSelectionConfig.rule]
  | some pending =>
    by_cases same : pending.watch.alternate = best.identity
    · have kept : (pending.routerId != best.routerId || pending.nextHop != best.nextHop ||
          pending.interface != best.interface) = false := by
        simpa [PendingSwitch.watch, Candidate.identity, and_assoc] using same
      simp only [Option.getD_some, kept, Option.map_some, Option.filter_some, same, decide_true,
        Bool.false_eq_true, if_false, if_true]
      rw [← same]
      rfl
    · have anew : (pending.routerId != best.routerId || pending.nextHop != best.nextHop ||
          pending.interface != best.interface) = true := by
        by_contra kept
        exact same (by simpa [PendingSwitch.watch, Candidate.identity, and_assoc] using kept)
      simp only [Option.getD_some, anew, Option.map_some, Option.filter_some, same, decide_false,
        Bool.false_eq_true, if_false, if_true, Option.getD_none]
      rfl

theorem dwell_memory (route : SelectedRoute) (best current : Candidate)
    (same : current.identity = route.identity) :
    (dwell config now key best current state).1.memory key
        (some (dwell config now key best current state).2.selected) =
      Hysteresis.dwell config.rule now best.identity current.metric
        (state.memory key (some route)) := by
  have watch := observed_watch config now key state (some route) best current
  have alternate : (observed now key state best current).watch.alternate = best.identity := by
    rw [watch]
    exact Hysteresis.observe_alternate config.rule now best.identity current.metric _
  have recovered : config.rule.clears current.metric (observed now key state best current).watch.peak =
      metricImprovementIsSignificant current.metric
        (observed now key state best current).currentPeakMetric config := rfl
  have kept : state.memory key (some current.selected) = state.memory key (some route) := by
    rw [memory_chosen key state (some route), same]
    rfl
  have ready : config.rule.waited (observed now key state best current).watch.since now =
      decide (satSub now (observed now key state best current).sinceMs ≥ config.betterForMs) := rfl
  rw [dwell_eq]
  simp only [Hysteresis.dwell, ← watch, recovered, ready, decide_eq_true_eq]
  split
  · rw [memory_watched, kept, ← alternate]
    rfl
  · split
    · rw [memory_unwatched, memory_chosen key state (some route)]
    · rw [memory_watched, kept]

variable (before : Option SelectedRoute) (first : Candidate) (rest : List Candidate)

/-- The choice for a key is a step of the damped choice. -/
theorem choose_memory :
    (choose config now before key first rest state).1.memory key
        (some (choose config now before key first rest state).2.selected) =
      Hysteresis.step config.rule (roundOf now before (first :: rest)) (state.memory key before) := by
  obtain ⟨settledState, settledFlag⟩ := settle_memory config now key state before
  have best : (roundOf now before (first :: rest)).best = some
      ((Candidate.best first rest).identity, (Candidate.best first rest).metric) := rfl
  simp only [choose]
  generalize settle config now key state = settled at settledState settledFlag ⊢
  split
  next current found =>
    obtain ⟨route, rfl, located⟩ := Option.bind_eq_some_iff.mp found
    have realised := List.find?_some located
    have same : current.identity = route.identity := realises_iff.mp realised
    have offered : (roundOf now (some route) (first :: rest)).current = some current.metric := by
      simp [roundOf, located]
    have favourite : ((Candidate.best first rest).sameCandidate current ||
          !sufficientlyBetter (Candidate.best first rest) current config) =
        (decide ((Candidate.best first rest).identity = route.identity) ||
          !config.rule.clears (Candidate.best first rest).metric current.metric) := by
      rw [← same]
      congr 1
      exact Bool.eq_iff_iff.mpr (sameCandidate_iff.trans decide_eq_true_iff.symm)
    rw [Hysteresis.step_challenge rfl offered best]
    change _ = Hysteresis.challenge config.rule now _ _ _ _
      (Hysteresis.State.settle config.rule now (state.memory key (some route)))
    rw [← settledState] at settledFlag ⊢
    unfold Hysteresis.challenge
    rw [favourite, settledFlag]
    split
    · rw [memory_unwatched, memory_chosen key settled.1 (some route), same]
      rfl
    · split
      next unsettled =>
        have early : (settled.1.memory key (some route)).settled = false := by
          simpa using unsettled
        have moved : ∀ u : Selection, u.memory key (some (Candidate.best first rest).selected) =
            { u.memory key (some route) with chosen := some (Candidate.best first rest).identity } :=
          fun u => memory_chosen key u (some route) _
        rw [moved, memory_since key { settled.1 with
          pendingSwitches := settled.1.pendingSwitches.remove key }, memory_unwatched]
        simp only [early]
      next => exact dwell_memory config now key settled.1 route _ current same
  next lost =>
    rw [Hysteresis.step_replace best (Or.inr (by simp [roundOf, lost]))]
    change _ = Hysteresis.replace now _
      (Hysteresis.State.settle config.rule now (state.memory key before))
    rw [← settledState] at settledFlag ⊢
    have taken : ∀ u : Selection, u.memory key (some (Candidate.best first rest).selected) =
        { u.memory key before with chosen := some (Candidate.best first rest).identity } :=
      fun u => memory_chosen key u before _
    simp only [settledFlag, Hysteresis.replace]
    split
    next => rw [taken, memory_unwatched]
    next =>
      rw [taken, memory_since key { settled.1 with
        pendingSwitches := settled.1.pendingSwitches.remove key }, memory_unwatched]

/-- The choice for a key leaves the memory of the others alone. -/
theorem choose_memory_other {other : RouteKey} (apart : key ≠ other) (route : Option SelectedRoute) :
    (choose config now before key first rest state).1.memory other route =
      state.memory other route := by
  have settled : (settle config now key state).1.memory other route = state.memory other route := by
    simp only [settle]
    split
    · rfl
    · split
      · simp [Selection.memory, AssocMap.get?_insert_of_ne _ _ apart, AssocMap.containsKey]
      · simp [Selection.memory, AssocMap.get?_insert_of_ne _ _ apart]
  have removed : ∀ u : Selection, Selection.memory other route
      { u with pendingSwitches := u.pendingSwitches.remove key } = u.memory other route := by
    intro u
    simp [Selection.memory, AssocMap.get?_remove, Ne.symm apart]
  have inserted : ∀ (u : Selection) pending, Selection.memory other route
      { u with pendingSwitches := u.pendingSwitches.insert key pending } = u.memory other route := by
    intro u pending
    simp [Selection.memory, AssocMap.get?_insert_of_ne _ _ apart]
  have begun : ∀ (u : Selection) since, Selection.memory other route
      { u with settlingSince := u.settlingSince.insert key since } = u.memory other route := by
    intro u since
    simp [Selection.memory, AssocMap.get?_insert_of_ne _ _ apart]
  simp only [choose]
  split
  · split
    · exact (removed _).trans settled
    · split
      · exact (begun _ now).trans ((removed _).trans settled)
      · rw [dwell_eq]
        split
        · exact (inserted _ _).trans settled
        · split
          · exact (removed _).trans settled
          · exact (inserted _ _).trans settled
  · split
    · exact (removed _).trans settled
    · exact (begun _ now).trans ((removed _).trans settled)

end Choice

section Loop
variable (config : RouteSelectionConfig) (now : UInt64) (before : OrdMap RouteKey SelectedRoute)

theorem foldl_selectGroup_memory_other (groups : List (RouteKey × List Candidate))
    (state : Selection) (absent : key ∉ keysOf groups) (route : Option SelectedRoute) :
    (groups.foldl (selectGroup config now before) state).memory key route =
      state.memory key route := by
  induction groups generalizing state with
  | nil => rfl
  | cons group rest ih =>
    rw [keysOf_cons, List.mem_cons, not_or] at absent
    rw [List.foldl_cons, ih _ absent.2]
    obtain ⟨name, members⟩ := group
    cases members with
    | nil => rfl
    | cons first others =>
      exact choose_memory_other config now name state (before.get? name) first others
        (Ne.symm absent.1) route

/-- The loop takes one step of the damped choice for every key it visits. -/
theorem foldl_selectGroup_memory (groups : List (RouteKey × List Candidate)) (state : Selection)
    (distinct : (keysOf groups).Nodup) {members : List Candidate} (member : (key, members) ∈ groups)
    (nonempty : members ≠ []) :
    (groups.foldl (selectGroup config now before) state).memory key
        ((groups.foldl (selectGroup config now before) state).next.get? key) =
      Hysteresis.step config.rule (roundOf now (before.get? key) members)
        (state.memory key (before.get? key)) := by
  induction groups generalizing state with
  | nil => cases member
  | cons group rest ih =>
    rw [keysOf_cons, List.nodup_cons] at distinct
    rw [List.foldl_cons]
    rcases List.mem_cons.mp member with rfl | later
    · rw [foldl_selectGroup_memory_other config now before rest _ distinct.1,
        foldl_selectGroup_other config now before rest _ key distinct.1]
      cases members with
      | nil => exact absurd rfl nonempty
      | cons first others =>
        simp only [selectGroup, OrdMap.get?_insert_self]
        exact choose_memory config now key state (before.get? key) first others
    · have apart : group.1 ≠ key := by
        rintro rfl
        exact distinct.1 (List.mem_map.mpr ⟨_, later, rfl⟩)
      rw [ih _ distinct.2 later]
      obtain ⟨name, members'⟩ := group
      cases members' with
      | nil => rfl
      | cons first others =>
        exact congrArg _ (choose_memory_other config now name state (before.get? name) first
          others apart _)

end Loop

/-! ## One call -/

def memory (key : RouteKey) (s : Engine P M) : Hysteresis.State Identity UInt64 UInt16 :=
  Selection.memory key (s.selected.get? key)
    ⟨s.selected, s.pendingSwitches, s.settlingSince, s.settledRoutes⟩

def round (order : HashOrder) (now : UInt64) (key : RouteKey) (s : Engine P M) :
    Hysteresis.Round Identity UInt64 UInt16 :=
  roundOf now (s.selected.get? key) (s.contenders order key)

/-- The prunings that conclude a reselection touch the keys without a route only. -/
theorem reselectState_pruned (order : HashOrder) (now : UInt64) (key : RouteKey) (s : Engine P M) :
    (s.reselectState order now).memory key =
      if (s.selection order now).next.containsKey key then
        (s.selection order now).memory key ((s.selection order now).next.get? key)
      else .empty := by
  have same : (s.reselectState order now).memory key =
      ⟨((s.selection order now).next.get? key).map SelectedRoute.identity,
        ((s.selection order now).pendingSwitches.retain fun other _ =>
          (s.selection order now).next.containsKey other).get? key |>.map PendingSwitch.watch,
        ((s.selection order now).settlingSince.retain fun other _ =>
          (s.selection order now).next.containsKey other).get? key,
        ((s.selection order now).settledRoutes.retain fun other _ =>
          (s.selection order now).next.containsKey other).containsKey key⟩ := rfl
  rw [same]
  cases kept : (s.selection order now).next.containsKey key with
  | true =>
    have whole : ∀ {V : Type} (entry : Option V), entry.filter (fun _ => true) = entry := by
      intro V entry
      cases entry <;> rfl
    simp [kept, Selection.memory, AssocMap.containsKey, whole]
  | false =>
    have unselected := OrdMap.containsKey_eq_false.mp kept
    simp [kept, unselected, Hysteresis.State.empty, AssocMap.containsKey]

theorem reselectState_memory (order : HashOrder) (now : UInt64) (key : RouteKey) (s : Engine P M) :
    (s.reselectState order now).memory key =
      Hysteresis.step s.config.routeSelection.rule (s.round order now key) (s.memory key) := by
  rw [reselectState_pruned]
  by_cases empty : s.contenders order key = []
  · have unselected : (s.selection order now).next.containsKey key = false :=
      OrdMap.containsKey_eq_false.mpr (selection_none empty)
    simp [unselected, Hysteresis.step, round, roundOf, empty]
  · have member : (key, s.contenders order key) ∈ (s.grouped order).entries := by
      rw [← OrdMap.get?_eq_some_iff, get?_grouped, if_neg empty]
    obtain ⟨chosen, _, found⟩ := selection_some now empty
    rw [if_pos (OrdMap.containsKey_iff.mpr ⟨_, found⟩)]
    exact foldl_selectGroup_memory s.config.routeSelection now s.selected (s.grouped order).entries
      ⟨.empty, s.pendingSwitches, s.settlingSince, s.settledRoutes⟩
      (s.grouped order).ascending.distinct member empty

/-- A selected route that no contender realises is not the best contender. -/
theorem round_fair (order : HashOrder) (now : UInt64) (key : RouteKey) (s : Engine P M) :
    (s.round order now key).Fair (s.memory key).chosen := by
  intro gone alternate cost best held
  obtain ⟨route, selected, same⟩ := Option.map_eq_some_iff.mp held
  simp only [round, roundOf, selected, Option.bind_some, Option.map_eq_none_iff,
    List.find?_eq_none] at gone
  simp only [round, roundOf] at best
  split at best
  · cases best
  next first rest listed =>
    simp only [Option.some.injEq, Prod.mk.injEq] at best
    refine gone (Candidate.best first rest) (listed ▸ Candidate.best_mem first rest) ?_
    exact realises_iff.mpr (best.1.trans same.symm)

/-! ## Runs -/

theorem memory_congr (same : t.switching = s.switching) (key : RouteKey) :
    t.memory key = s.memory key ∧ t.config.routeSelection = s.config.routeSelection := by
  simp only [switching, Prod.mk.injEq] at same
  obtain ⟨config, selected, pending, since, settled⟩ := same
  simp only [memory, Selection.memory, config, selected, pending, since, settled, and_self]

def Call.entry (key : RouteKey) (call : Call P M) : Hysteresis.Entry Identity UInt64 UInt16 where
  held := (call.engine.selected.get? key).map SelectedRoute.identity
  round := call.engine.round call.order call.now key
  next := (call.after.selected.get? key).map SelectedRoute.identity

theorem after_memory (call : Call P M) (key : RouteKey) :
    call.after.memory key = Hysteresis.step call.engine.config.routeSelection.rule
      (call.engine.round call.order call.now key) (call.engine.memory key) := by
  rw [← reselectState_memory]
  exact (memory_congr (reselect_switching call.order call.now call.engine) key).1

theorem entry_eq (call : Call P M) (key : RouteKey) :
    call.entry key = Hysteresis.entryOf call.engine.config.routeSelection.rule
      (call.engine.round call.order call.now key) (call.engine.memory key) := by
  rw [Hysteresis.entryOf, ← after_memory]
  rfl

/-- The log tells what the engine remembers for the key, now and at every call of it. -/
structure Remembers (key : RouteKey) (log : List (Call P M)) (s : Engine P M) : Prop where
  present : Hysteresis.Tracks s.config.routeSelection.rule (log.map (Call.entry key)) (s.memory key)
  past : ∀ earlier call later, log = earlier ++ call :: later →
    call.engine.config.routeSelection = s.config.routeSelection ∧
      Hysteresis.Tracks s.config.routeSelection.rule (earlier.map (Call.entry key))
        (call.engine.memory key)

theorem Remembers.of_switching {log : List (Call P M)} (remembers : Remembers key log s)
    (same : t.switching = s.switching) : Remembers key log t := by
  obtain ⟨memory, config⟩ := memory_congr same key
  refine ⟨?_, ?_⟩
  · rw [config, memory]
    exact remembers.present
  · rw [config]
    exact remembers.past

theorem Remembers.call {log : List (Call P M)} {call : Call P M}
    (remembers : Remembers key log call.engine) : Remembers key (log ++ [call]) call.after := by
  have config : call.after.config.routeSelection = call.engine.config.routeSelection :=
    congrArg EngineConfig.routeSelection (reselect_tables call.order call.now call.engine).config
  refine ⟨?_, ?_⟩
  · rw [config, after_memory, List.map_append, List.map_singleton, entry_eq]
    exact remembers.present.step (round_fair call.order call.now key call.engine)
  · intro earlier other later listed
    rw [config]
    rcases List.eq_nil_or_concat later with rfl | ⟨middle, last, rfl⟩
    · obtain ⟨rfl, same⟩ := List.append_inj' listed rfl
      cases same
      exact ⟨rfl, remembers.present⟩
    · rw [List.concat_eq_append, ← List.cons_append, ← List.append_assoc] at listed
      exact remembers.past earlier other middle (List.append_inj' listed rfl).1

theorem Calls.remembers {order : HashOrder} {calls : List (Engine P M)} {log : List (Call P M)}
    (made : Calls order now s calls t) (remembers : Remembers key log s) :
    Remembers key (log ++ calls.map fun engine => ⟨now, order, engine⟩) t := by
  induction calls generalizing s log with
  | nil =>
    rw [List.map_nil, List.append_nil]
    exact remembers.of_switching made
  | cons engine rest ih =>
    have called : Remembers key (log ++ [⟨now, order, engine⟩]) (reselect order now engine).1 :=
      (remembers.of_switching made.1).call
    have later := ih made.2 called
    rwa [List.append_assoc, List.singleton_append] at later

section Metric
variable [NeighborMetric M] [MetricProfile P M]

theorem CallRun.remembers {history : List (Event P × List (Call P M))} (run : CallRun history s)
    (key : RouteKey) :
    Remembers key (history.flatMap Prod.snd) s := by
  refine run.invariant (fun history s => Remembers key (history.flatMap Prod.snd) s) ?_ ?_
  · intro s starts
    obtain ⟨config, _, rfl⟩ := starts.eq_initial
    refine ⟨Hysteresis.tracks_empty _ _, fun earlier call later listed => ?_⟩
    cases earlier <;> cases listed
  · rintro history s event calls t remembers ⟨order, actions, handled, rfl⟩
    obtain ⟨_, _, rfl⟩ := tryHandle_ok handled
    have noted : (noteLifetimes (handleValidated order event s)).switching =
        (handleValidated order event s).1.switching := rfl
    have later := (handleValidated_calls order event s).remembers remembers
    simp only [List.flatMap_append, List.flatMap_cons, List.flatMap_nil, List.append_nil]
    exact later.of_switching noted

omit [NeighborMetric M] [MetricProfile P M] in
/-- A usable candidate of the selected identity is found by the round, at a finite metric. -/
theorem round_current (order : HashOrder) (now : UInt64) {old : SelectedRoute}
    (was : s.selected.get? key = some old) {candidate : Candidate}
    (stored : candidate ∈ s.candidates.values) (named : candidate.key = key)
    (same : candidate.identity = old.identity) (usable : s.usable candidate = true) :
    ∃ current, (s.round order now key).current = some current ∧ current < INFINITY := by
  have listed : candidate ∈ s.contenders order key := mem_contenders.mpr ⟨stored, usable, named⟩
  cases found : (s.contenders order key).find? fun route => route.realises old with
  | none =>
    exact absurd (realises_iff.mpr same) (List.find?_eq_none.mp found candidate listed)
  | some current =>
    have member := (mem_contenders.mp (List.mem_of_find?_eq_some found)).2.1
    simp only [Engine.usable, Bool.and_eq_true, decide_eq_true_eq] at member
    exact ⟨current.metric, by simp [round, roundOf, was, found], member.1⟩

/-- A selected route is replaced, while a usable candidate of its identity remains, only by
the best one, better by both margins, and only before the key has settled or after the
other identity has been favoured at every call for `better_for_ms`. -/
theorem switch_is_damped {history : List (Event P × List (Call P M))} {s : Engine P M}
    (run : CallRun history s) {earlier later : List (Call P M)} {call : Call P M}
    (listed : history.flatMap Prod.snd = earlier ++ call :: later) {key : RouteKey}
    {old new : SelectedRoute} (was : call.engine.selected.get? key = some old)
    (next : call.after.selected.get? key = some new) (moved : new.identity ≠ old.identity)
    {candidate : Candidate} (stored : candidate ∈ call.engine.candidates.values)
    (named : candidate.key = key) (same : candidate.identity = old.identity)
    (usable : call.engine.usable candidate = true) :
    (∃ best current, (call.entry key).round.best = some (new.identity, best) ∧
        (call.entry key).round.current = some current ∧
        s.config.routeSelection.Beats best current) ∧
      ((∃ since, Hysteresis.Settling s.config.routeSelection.rule (earlier.map (Call.entry key))
            since ∧ satSub call.now since < s.config.routeSelection.betterForMs) ∨
        ∃ since peak, Hysteresis.Dwelling s.config.routeSelection.rule old.identity new.identity
            ((earlier ++ [call]).map (Call.entry key)) since peak ∧
          satSub call.now since ≥ s.config.routeSelection.betterForMs) := by
  obtain ⟨config, tracks⟩ := (run.remembers key).past earlier call later listed
  obtain ⟨current, offered, finite⟩ :=
    round_current call.order call.now was stored named same usable
  have chosen : (call.engine.memory key).chosen = some old.identity := by
    simp [memory, Selection.memory, was]
  have after : (Hysteresis.step s.config.routeSelection.rule
      (call.engine.round call.order call.now key) (call.engine.memory key)).chosen =
        some new.identity := by
    rw [← config, ← after_memory]
    simp [memory, Selection.memory, next]
  obtain ⟨favours, reason⟩ := tracks.moves chosen offered after moved
  rw [← config, ← entry_eq] at favours reason
  rw [config] at favours reason
  obtain ⟨best, offeredBest, clears⟩ := favours.best
  refine ⟨⟨best, current, offeredBest, offered, beats_of_significant finite clears⟩, ?_⟩
  rcases reason with ⟨since, settling, young⟩ | ⟨since, peak, dwelling, ready⟩
  · left
    refine ⟨since, settling, ?_⟩
    simpa [RouteSelectionConfig.rule, round, roundOf] using young
  · right
    refine ⟨since, peak, ?_, ?_⟩
    · rw [List.map_append, List.map_singleton]
      exact dwelling
    · simpa [RouteSelectionConfig.rule, round, roundOf] using ready

end Metric

/-! ## Concrete runs -/

section Concrete

open Conformance

def damped : EngineConfig BuiltinProfile :=
  { harness (nodeId 0) with routeSelection := ⟨0, 0, 1000⟩ }

/-- A route over the first link that has settled, and a neighbour on the second. -/
def settledRoute : List (Event BuiltinProfile) :=
  [.interfaceUp (link 1) [address 1] 0, .interfaceUp (link 2) [address 1] 0,
    packet (link 1) (address 2) (greeting 96) 1, packet (link 2) (address 3) (greeting 96) 1,
    packet (link 1) (address 2) [routeUpdate destination (address 2) (nodeId 1) 100 10] 2,
    packet (link 1) (address 2) [routeUpdate destination (address 2) (nodeId 1) 101 10] 1500]

/-- The neighbour on the second link offers a worse route, and a better one. -/
def worseOffer : Event BuiltinProfile :=
  packet (link 2) (address 3) [routeUpdate destination (address 3) (nodeId 1) 101 50] 2000

def betterOffer : Event BuiltinProfile :=
  packet (link 2) (address 3) [routeUpdate destination (address 3) (nodeId 1) 101 5] 2000

def overFirst : Identity := (nodeId 1, address 2, link 1)
def overSecond : Identity := (nodeId 1, address 3, link 2)

def handled (event : Event BuiltinProfile) (s : Harness) : Harness :=
  noteLifetimes (handleValidated HashOrder.stored event s)

def callsOf (event : Event BuiltinProfile) (s : Harness) :
    List (Call BuiltinProfile BuiltinNeighbor) :=
  (s.reselections HashOrder.stored event).map fun engine => ⟨event.now, HashOrder.stored, engine⟩

theorem callRun_handled {history : List (Event BuiltinProfile ×
    List (Call BuiltinProfile BuiltinNeighbor))} {s : Harness} (run : CallRun history s)
    (event : Event BuiltinProfile) (valid : event.validate = .ok ()) :
    CallRun (history ++ [(event, callsOf event s)]) (handled event s) :=
  .step run ⟨HashOrder.stored, _, tryHandle_valid event valid HashOrder.stored s, rfl⟩

/-- What a call finds and does about the destination. -/
structure Digest where
  now : UInt64
  held : Option Identity
  best : Option Identity
  next : Option Identity
deriving DecidableEq

def digest (call : Call BuiltinProfile BuiltinNeighbor) : Digest where
  now := call.now
  held := (call.engine.selected.get? destination).map SelectedRoute.identity
  best := (call.entry destination).round.best.map Prod.fst
  next := (call.after.selected.get? destination).map SelectedRoute.identity

/-- The route over the first link is usable and has settled. -/
def firstStands (call : Call BuiltinProfile BuiltinNeighbor) : Bool :=
  call.engine.settledRoutes.containsKey destination &&
    (call.engine.candidates.get? (destination, ⟨link 1, address 2⟩)).any fun candidate =>
      decide (candidate.key = destination) && decide (candidate.identity = overFirst) &&
        call.engine.usable candidate

/-- Both offers come in one millisecond; a second later the better one is taken. -/
theorem overtaken : ∃ history s early worse better call,
    CallRun (P := BuiltinProfile) (M := BuiltinNeighbor) history s ∧
      history.flatMap Prod.snd = early ++ [worse, better] ++ [call] ∧
      s.config.routeSelection.betterForMs = 1000 ∧
      digest worse = ⟨2000, some overFirst, some overFirst, some overFirst⟩ ∧
      digest call = ⟨3000, some overFirst, some overSecond, some overSecond⟩ ∧
      firstStands call = true := by
  obtain ⟨_, s, run, first, second, third, config⟩ := run_of_checked_play anyEvent damped settledRoute
    (fun _ (s : Harness) =>
      (callsOf worseOffer s).map digest = [⟨2000, some overFirst, some overFirst, some overFirst⟩] ∧
      (callsOf betterOffer (handled worseOffer s)).map digest =
        [⟨2000, some overFirst, some overSecond, some overFirst⟩] ∧
      (callsOf (.tick 3000) (handled betterOffer (handled worseOffer s))).map
        (fun call => (digest call, firstStands call)) =
          [(⟨3000, some overFirst, some overSecond, some overSecond⟩, true)] ∧
      (handled (.tick 3000) (handled betterOffer (handled worseOffer s))).config.routeSelection.betterForMs =
        1000)
    rfl (by decide +kernel)
  obtain ⟨worse, oneWorse, worseDigest⟩ := List.map_eq_singleton_iff.mp first
  obtain ⟨better, oneBetter, _⟩ := List.map_eq_singleton_iff.mp second
  obtain ⟨call, oneCall, callDigest⟩ := List.map_eq_singleton_iff.mp third
  obtain ⟨history, calls, _⟩ := run.calls
  have played := callRun_handled (callRun_handled (callRun_handled calls worseOffer rfl) betterOffer
    rfl) (.tick 3000) rfl
  refine ⟨_, _, history.flatMap Prod.snd, worse, better, call, played, ?_, config, worseDigest,
    (Prod.mk.inj callDigest).1, (Prod.mk.inj callDigest).2⟩
  simp [oneWorse, oneBetter, oneCall]

/-- The settled route gives way although at the beginning of every interval of a second that
ends with the switch there was a call at which the other route was not the best. -/
theorem earlier_call_of_the_same_instant :
    ∃ (history : List (Event BuiltinProfile × List (Call BuiltinProfile BuiltinNeighbor)))
        (s : Harness) (earlier : List (Call BuiltinProfile BuiltinNeighbor))
        (call : Call BuiltinProfile BuiltinNeighbor), CallRun history s ∧
      history.flatMap Prod.snd = earlier ++ [call] ∧
      s.config.routeSelection.betterForMs = 1000 ∧ call.now = 3000 ∧ firstStands call = true ∧
      (call.engine.selected.get? destination).map SelectedRoute.identity = some overFirst ∧
      (call.after.selected.get? destination).map SelectedRoute.identity = some overSecond ∧
      ∀ start : UInt64, start ≤ 2000 → ∃ other ∈ earlier, start ≤ other.now ∧
        other.now ≤ call.now ∧
        (other.entry destination).round.best.map Prod.fst ≠ some overSecond := by
  obtain ⟨history, s, early, worse, better, call, run, listed, config, atWorse, atCall, stands⟩ :=
    overtaken
  have worseNow : worse.now = 2000 := congrArg Digest.now atWorse
  have callNow : call.now = 3000 := congrArg Digest.now atCall
  have worseBest : (worse.entry destination).round.best.map Prod.fst = some overFirst :=
    congrArg Digest.best atWorse
  refine ⟨history, s, early ++ [worse, better], call, run, listed, config, callNow, stands,
    congrArg Digest.held atCall, congrArg Digest.next atCall, fun start before => ?_⟩
  refine ⟨worse, by simp, ?_, ?_, ?_⟩
  · rw [worseNow]
    exact before
  · rw [worseNow, callNow]
    decide
  · rw [worseBest]
    decide

/-- The alternate had been favoured for the whole second. -/
theorem alternate_waited_its_second :
    ∃ (earlier : List (Call BuiltinProfile BuiltinNeighbor))
        (call : Call BuiltinProfile BuiltinNeighbor) (config : RouteSelectionConfig),
      digest call = ⟨3000, some overFirst, some overSecond, some overSecond⟩ ∧
      ((∃ since, Hysteresis.Settling config.rule (earlier.map (Call.entry destination)) since ∧
          satSub call.now since < config.betterForMs) ∨
        ∃ since peak, Hysteresis.Dwelling config.rule overFirst overSecond
            ((earlier ++ [call]).map (Call.entry destination)) since peak ∧
          satSub call.now since ≥ config.betterForMs) := by
  obtain ⟨history, s, early, worse, better, call, run, listed, _, _, atCall, stands⟩ := overtaken
  obtain ⟨old, was, oldIdentity⟩ := Option.map_eq_some_iff.mp (congrArg Digest.held atCall)
  obtain ⟨new, next, newIdentity⟩ := Option.map_eq_some_iff.mp (congrArg Digest.next atCall)
  obtain ⟨candidate, stored, passes⟩ :=
    (Option.any_eq_true _ _).mp (Bool.and_eq_true_iff.mp stands).2
  simp only [Bool.and_eq_true, decide_eq_true_eq] at passes
  obtain ⟨⟨named, identity⟩, usable⟩ := passes
  have damping := (switch_is_damped run listed was next
    (by rw [oldIdentity, newIdentity]; decide) (AssocMap.mem_values_iff.mpr ⟨_, stored⟩) named
    (identity.trans oldIdentity.symm) usable).2
  rw [oldIdentity, newIdentity] at damping
  exact ⟨_, call, _, atCall, damping⟩

end Concrete

end Engine

end BabelRs
