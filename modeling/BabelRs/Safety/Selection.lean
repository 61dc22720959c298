import BabelRs.Safety.Announce

/-!
# What reselection does

The selection loop picks, for exactly the keys with a finite feasible candidate,
one of those candidates; holds then cover exactly the keys that were lost and
the older holds still without a route.
-/

set_option autoImplicit false

namespace BabelRs

open Lib

/-- The candidate is finite and feasible, so reselection may use it. -/
def Engine.usable {P M : Type} (engine : Engine P M) (candidate : Candidate) : Bool :=
  decide (candidate.metric < INFINITY) && engine.candidateIsFeasible candidate

namespace Candidate

theorem best_mem (first : Candidate) (rest : List Candidate) : best first rest ∈ first :: rest := by
  unfold best
  induction rest generalizing first with
  | nil => exact List.mem_cons_self
  | cons next rest ih =>
    rw [List.foldl_cons]
    split_ifs
    · exact List.mem_cons_of_mem _ (ih next)
    · rcases List.mem_cons.mp (ih first) with same | later
      · rw [same]
        exact List.mem_cons_self
      · exact List.mem_cons_of_mem _ (List.mem_cons_of_mem _ later)

end Candidate

namespace Engine

variable {P M : Type}
variable {order : HashOrder} {key : RouteKey}

/-! ## The choice for one key -/

section Choice
variable (config : RouteSelectionConfig) (now : UInt64) (key : RouteKey) (state : Selection)

theorem settle_next : (settle config now key state).1.next = state.next := by
  simp only [settle]
  split
  · rfl
  · split <;> rfl

theorem dwell_next (best current : Candidate) :
    (dwell config now key best current state).1.next = state.next := by
  simp only [dwell]
  split_ifs <;> rfl

theorem dwell_choice (best current : Candidate) :
    (dwell config now key best current state).2 = best ∨
      (dwell config now key best current state).2 = current := by
  simp only [dwell]
  split_ifs <;> simp

variable (before : Option SelectedRoute) (first : Candidate) (rest : List Candidate)

theorem choose_next : (choose config now before key first rest state).1.next = state.next := by
  have settled := settle_next config now key state
  simp only [choose]
  split
  · split
    · exact settled
    · split
      · exact settled
      · rw [dwell_next]
        exact settled
  · split <;> exact settled

theorem choose_mem : (choose config now before key first rest state).2 ∈ first :: rest := by
  have bestMember := Candidate.best_mem first rest
  simp only [choose]
  split
  next current found =>
    obtain ⟨selected, _, located⟩ := Option.bind_eq_some_iff.mp found
    have currentMember : current ∈ first :: rest := List.mem_of_find?_eq_some located
    split
    · exact currentMember
    · split
      · exact bestMember
      · rcases dwell_choice config now key (settle config now key state).1
          (Candidate.best first rest) current with best | same
        · rw [best]; exact bestMember
        · rw [same]; exact currentMember
  next => split <;> exact bestMember

end Choice

/-! ## The selection loop -/

section Loop
variable (config : RouteSelectionConfig) (now : UInt64) (before : OrdMap RouteKey SelectedRoute)

theorem foldl_selectGroup_other (groups : List (RouteKey × List Candidate)) (state : Selection)
    (key : RouteKey) (absent : key ∉ keysOf groups) :
    (groups.foldl (selectGroup config now before) state).next.get? key = state.next.get? key := by
  induction groups generalizing state with
  | nil => rfl
  | cons group rest ih =>
    rw [keysOf_cons, List.mem_cons, not_or] at absent
    rw [List.foldl_cons, ih _ absent.2]
    obtain ⟨name, members⟩ := group
    cases members with
    | nil => rfl
    | cons first others =>
      simp only [selectGroup]
      rw [OrdMap.get?_insert_of_ne _ _ (Ne.symm absent.1), choose_next]

theorem foldl_selectGroup_mem (groups : List (RouteKey × List Candidate)) (state : Selection)
    (distinct : (keysOf groups).Nodup) {members : List Candidate} (member : (key, members) ∈ groups)
    (nonempty : members ≠ []) :
    ∃ chosen ∈ members,
      (groups.foldl (selectGroup config now before) state).next.get? key =
        some chosen.selected := by
  induction groups generalizing state with
  | nil => cases member
  | cons group rest ih =>
    rw [keysOf_cons, List.nodup_cons] at distinct
    rw [List.foldl_cons]
    rcases List.mem_cons.mp member with here | later
    · subst here
      rw [foldl_selectGroup_other config now before rest _ key distinct.1]
      cases members with
      | nil => exact absurd rfl nonempty
      | cons first others =>
        refine ⟨_, choose_mem config now key state (before.get? key) first others, ?_⟩
        simp only [selectGroup, OrdMap.get?_insert_self]
    · exact ih _ distinct.2 later

end Loop

/-- The candidates reselection may choose among for one key. -/
def contenders (order : HashOrder) (engine : Engine P M) (key : RouteKey) : List Candidate :=
  (((order.iter engine.candidates.entries).map Prod.snd).filter engine.usable).filter
    fun route => route.key = key

theorem mem_contenders {engine : Engine P M} {candidate : Candidate} :
    candidate ∈ engine.contenders order key ↔
      candidate ∈ engine.candidates.values ∧ engine.usable candidate = true ∧
        candidate.key = key := by
  simp only [contenders, AssocMap.values, List.mem_filter, List.mem_map, HashOrder.mem_iter,
    decide_eq_true_eq, and_assoc]

theorem get?_grouped (order : HashOrder) (engine : Engine P M) (key : RouteKey) :
    (engine.grouped order).get? key =
      if engine.contenders order key = [] then none
      else some (engine.contenders order key) := by
  rw [grouped, OrdMap.get?_groupBy]
  -- The two sides decide equality of keys through different instances.
  congr <;> exact funext fun route => decide_eq_decide.mpr Iff.rfl

theorem selection_none {now : UInt64} {engine : Engine P M}
    (empty : engine.contenders order key = []) :
    (engine.selection order now).next.get? key = none := by
  have absent : key ∉ (engine.grouped order).keys := by
    rw [← OrdMap.get?_eq_none_iff, get?_grouped, if_pos empty]
  unfold selection
  rw [foldl_selectGroup_other _ _ _ _ _ key absent]
  exact OrdMap.get?_empty key

theorem selection_some (now : UInt64) {engine : Engine P M}
    (nonempty : engine.contenders order key ≠ []) :
    ∃ chosen ∈ engine.contenders order key,
      (engine.selection order now).next.get? key = some chosen.selected := by
  have member : (key, engine.contenders order key) ∈ (engine.grouped order).entries := by
    rw [← OrdMap.get?_eq_some_iff, get?_grouped, if_neg nonempty]
  exact foldl_selectGroup_mem _ _ _ _ _ (engine.grouped order).ascending.distinct member nonempty

/-! ## The state after reselection -/

section State
variable (order : HashOrder) (now : UInt64) (s : Engine P M)

theorem reselectState_selected :
    (s.reselectState order now).selected = (s.selection order now).next := rfl

/-- A selected route is one of the usable candidates of its key. -/
theorem reselectState_chosen {route : SelectedRoute}
    (found : (s.reselectState order now).selected.get? key = some route) :
    ∃ candidate ∈ s.candidates.values, s.usable candidate = true ∧ candidate.key = key ∧
      route = candidate.selected := by
  rw [reselectState_selected] at found
  by_cases empty : s.contenders order key = []
  · rw [selection_none empty] at found
    cases found
  · obtain ⟨chosen, member, selected⟩ := selection_some now empty
    rw [selected] at found
    obtain ⟨stored, usable, named⟩ := mem_contenders.mp member
    exact ⟨chosen, stored, usable, named, (Option.some.inj found).symm⟩

theorem reselectState_complete {candidate : Candidate} (stored : candidate ∈ s.candidates.values)
    (usable : s.usable candidate = true) :
    ∃ route, (s.reselectState order now).selected.get? candidate.key = some route := by
  have nonempty : s.contenders order candidate.key ≠ [] :=
    List.ne_nil_of_mem (mem_contenders.mpr ⟨stored, usable, rfl⟩)
  obtain ⟨chosen, _, selected⟩ := selection_some now nonempty
  exact ⟨chosen.selected, selected⟩

theorem reselectState_keyed : SelectedKeyed (s.reselectState order now) := by
  intro key route found
  obtain ⟨candidate, _, _, named, rfl⟩ := reselectState_chosen order now s found
  exact named

/-- A key that lost its route is held to its loss deadline, a key with a route is
not held, and any other hold stays. -/
theorem get?_reselectState_tombstones (key : RouteKey) :
    (s.reselectState order now).tombstones.get? key =
      if (s.reselectState order now).selected.containsKey key then none
      else if s.selected.containsKey key then some (s.lossDeadline now key)
      else s.tombstones.get? key := by
  change (List.foldl (fun holds lost => holds.insert lost (s.lossDeadline now lost))
    (s.tombstones.retain fun key _ => !(s.selection order now).next.containsKey key)
    (order.iter (s.selected.keys.filter fun key =>
      !(s.selection order now).next.containsKey key))).get? key = _
  rw [OrdMap.get?_foldl_insert, reselectState_selected, OrdMap.get?_retain]
  by_cases live : (s.selection order now).next.containsKey key = true
  · simp [live]
  · by_cases before : s.selected.containsKey key = true
    · simp [live, before, OrdMap.mem_keys_iff]
    · cases s.tombstones.get? key <;> simp [live, before, OrdMap.mem_keys_iff]

end State

/-! ## The output of reselection -/

section Output
variable (order : HashOrder) (now : UInt64) (s : Engine P M)

/-- Reselection either changes neither routes nor held keys and is silent, or
reports one snapshot of its new state and announces the difference. -/
theorem reselect_cases :
    (reselect order now s = (s.reselectState order now, []) ∧
        (s.reselectState order now).selected = s.selected ∧
        (s.reselectState order now).tombstones.keys = s.tombstones.keys) ∨
      ∃ delta, (reselect order now s).2 =
          .routesChanged (s.generation + 1) (s.reselectState order now).selectedRoutes
            (s.reselectState order now).unreachableRoutes :: delta ∧
        Announces (fun key => s.selected.containsKey key = true) now
          { s.reselectState order now with generation := s.generation + 1 } delta
          (reselect order now s).1 := by
  by_cases changed : (s.reselectState order now).selected ≠ s.selected ∨
      (s.reselectState order now).tombstones.keys ≠ s.tombstones.keys
  · right
    refine ⟨(selectedDelta order s.selected now
      { s.reselectState order now with generation := s.generation + 1 }).2, ?_, ?_⟩
    · simp only [reselect, if_pos changed]
      rfl
    · have announced : Announces _ now _ _ _ := selectedDelta_announces order s.selected
        { s.reselectState order now with generation := s.generation + 1 }
        (reselectState_keyed order now s)
      have same : (reselect order now s).1 = (selectedDelta order s.selected now
          { s.reselectState order now with generation := s.generation + 1 }).1 := by
        simp only [reselect, if_pos changed]
        rfl
      rw [same]
      exact announced
  · left
    simp only [not_or, not_not] at changed
    refine ⟨?_, changed.1, changed.2⟩
    simp only [reselect]
    rw [if_neg (by simp [changed.1, changed.2])]

/-- The tables after `reselect` are those of its state part, whatever it sent. -/
structure ReselectTables (s t : Engine P M) : Prop where
  config : t.config = s.config
  links : t.links = s.links
  adjacencies : ∀ key, t.adjacency key = s.adjacency key
  originated : t.originated = s.originated
  candidates : t.candidates = s.candidates
  advertisedUntil : t.advertisedUntil = s.advertisedUntil
  sequenceNumber : t.sequenceNumber = s.sequenceNumber

theorem ReselectTables.metrics {s t : Engine P M} (tables : ReselectTables s t)
    (key : NeighborKey) : t.metricOf key = s.metricOf key := by
  rw [metricOf_adjacency, metricOf_adjacency, tables.adjacencies]

theorem reselect_tables : ReselectTables s (reselect order now s).1 := by
  rcases reselect_cases order now s with ⟨silent, _, _⟩ | ⟨delta, _, announced⟩
  · rw [silent]
    exact ⟨rfl, rfl, fun _ => rfl, rfl, rfl, rfl, rfl⟩
  · have quiet := announced.quiet
    exact ⟨quiet.config, quiet.links, quiet.adjacencies, quiet.originated, quiet.candidates,
      quiet.advertisedUntil, quiet.sequenceNumber⟩

theorem reselect_selected :
    (reselect order now s).1.selected = (s.reselectState order now).selected := by
  rcases reselect_cases order now s with ⟨silent, _, _⟩ | ⟨delta, _, announced⟩
  · rw [silent]
  · exact announced.quiet.selected

theorem reselect_tombstones :
    (reselect order now s).1.tombstones = (s.reselectState order now).tombstones := by
  rcases reselect_cases order now s with ⟨silent, _, _⟩ | ⟨delta, _, announced⟩
  · rw [silent]
  · exact announced.quiet.tombstones

/-- The dwell tables after a call are those of the new selection: announcing it changes none. -/
theorem reselect_switching :
    (reselect order now s).1.switching = (s.reselectState order now).switching := by
  rcases reselect_cases order now s with ⟨silent, _, _⟩ | ⟨delta, _, announced⟩
  · rw [silent]
  · exact announced.quiet.switching

theorem reselect_keyed : SelectedKeyed (reselect order now s).1 := by
  intro key route found
  rw [reselect_selected] at found
  exact reselectState_keyed order now s key route found

theorem reselect_recorded :
    (reselect order now s).1.feasible =
      (sentUpdates (reselect order now s).2).foldl (SourceTable.note now) s.feasible := by
  rcases reselect_cases order now s with ⟨silent, _, _⟩ | ⟨delta, actions, announced⟩
  · rw [silent]
    rfl
  · rw [actions, sentUpdates_cons, announced.recorded]
    rfl

/-- Reselection announces selected routes and the keys it lost. -/
theorem reselect_licensed :
    ∀ sent ∈ sentUpdates (reselect order now s).2,
      Licensed (fun key => s.selected.containsKey key = true) (reselect order now s).1 sent := by
  rcases reselect_cases order now s with ⟨silent, _, _⟩ | ⟨delta, actions, announced⟩
  · rw [silent]
    simp
  · intro sent member
    rw [actions, sentUpdates_cons] at member
    have licensed := announced.licensed (reselectState_keyed order now s) sent member
    exact licensed.of_frame announced.quiet.toFrame.symm

end Output

end Engine

end BabelRs
