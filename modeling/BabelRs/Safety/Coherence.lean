import BabelRs.Safety.Sensing

/-!
# RIB coherence

Candidates carry the metric of their neighbour's current link, selected routes
are backed by finite candidates, and every key with a usable candidate is
selected.  The engine reselects only when a flag says so; the invariant between
the flagged changes of one event is "coherent, or flagged".
-/

set_option autoImplicit false

namespace BabelRs

open Lib

/-- The part of a candidate that selection reads: everything but its timers. -/
def Candidate.core (candidate : Candidate) : Candidate :=
  { candidate with intervalCs := 0, expiresMs := 0, refreshRequested := false }

namespace Engine

variable {P M : Type}
variable {s t : Engine P M} {actions : List Action} {now : UInt64} {neighbour : NeighborKey}

/-! ## The invariant -/

/-- Selected routes are backed by finite candidates, and usable candidates have a
selected route. -/
structure Settled (s : Engine P M) : Prop where
  backed : ∀ key route, s.selected.get? key = some route →
    ∃ neighbour candidate, s.candidates.get? (key, neighbour) = some candidate ∧
      route = candidate.selected ∧ candidate.metric < INFINITY
  complete : ∀ key neighbour candidate, s.candidates.get? (key, neighbour) = some candidate →
    candidate.metric < INFINITY → s.candidateIsFeasible candidate = true →
      ∃ route, s.selected.get? key = some route

section Metric
variable [NeighborMetric M]

/-- Candidates are filed under their key and interface, are never the engine's
own, and belong to a known neighbour. -/
structure Named (s : Engine P M) : Prop where
  named : ∀ key neighbour candidate, s.candidates.get? (key, neighbour) = some candidate →
    candidate.key = key ∧ candidate.interface = neighbour.interface ∧
      candidate.routerId ≠ s.config.routerId
  known : ∀ key neighbour candidate, s.candidates.get? (key, neighbour) = some candidate →
    ∃ metric, s.metricOf neighbour = some metric
  keyed : SelectedKeyed s

/-- The candidates of a neighbour carry the metric of its current link. -/
def CurrentAt (s : Engine P M) (neighbour : NeighborKey) : Prop :=
  ∀ key candidate metric, s.candidates.get? (key, neighbour) = some candidate →
    s.metricOf neighbour = some metric →
      candidate.metric = safeExtend s.config.metricAlgebra candidate.advertisedMetric
        (NeighborMetric.linkCost metric)

structure Filed (s : Engine P M) : Prop extends Named s where
  current : ∀ neighbour, CurrentAt s neighbour

/-- A candidate that keeps its name and either its metrics or none. -/
structure Inherits (candidate old : Candidate) : Prop where
  key : candidate.key = old.key
  interface : candidate.interface = old.interface
  routerId : candidate.routerId = old.routerId
  metrics : candidate.advertisedMetric = old.advertisedMetric ∧ candidate.metric = old.metric ∨
    candidate.advertisedMetric = INFINITY ∧ candidate.metric = INFINITY

theorem Inherits.refl (candidate : Candidate) : Inherits candidate candidate :=
  ⟨rfl, rfl, rfl, Or.inl ⟨rfl, rfl⟩⟩

theorem Inherits.retract (candidate : Candidate) : Inherits (retractCandidate candidate) candidate :=
  ⟨rfl, rfl, rfl, Or.inr ⟨rfl, rfl⟩⟩

theorem safeExtend_infinity (algebra : MetricAlgebra) (link : UInt16) :
    safeExtend algebra INFINITY link = INFINITY := by
  simp [safeExtend]

/-- Filing survives when candidates only disappear or are retracted and the
neighbours of the others keep their metrics. -/
theorem Filed.inherit (config : t.config = s.config) (selected : t.selected = s.selected)
    (metrics : ∀ key neighbour candidate, t.candidates.get? (key, neighbour) = some candidate →
      t.metricOf neighbour = s.metricOf neighbour)
    (inherited : ∀ entry candidate, t.candidates.get? entry = some candidate →
      ∃ old, s.candidates.get? entry = some old ∧ Inherits candidate old) (filed : Filed s) :
    Filed t where
  named := by
    intro key neighbour candidate found
    obtain ⟨old, stored, inherits⟩ := inherited _ candidate found
    rw [inherits.key, inherits.interface, inherits.routerId, config]
    exact filed.named key neighbour old stored
  known := by
    intro key neighbour candidate found
    obtain ⟨old, stored, _⟩ := inherited _ candidate found
    rw [metrics key neighbour candidate found]
    exact filed.known key neighbour old stored
  keyed := by
    intro key route found
    rw [selected] at found
    exact filed.keyed key route found
  current := by
    intro neighbour key candidate metric found linked
    obtain ⟨old, stored, inherits⟩ := inherited _ candidate found
    rw [metrics key neighbour candidate found] at linked
    rcases inherits.metrics with ⟨advertised, same⟩ | ⟨advertised, infinite⟩
    · rw [advertised, same, config]
      exact filed.current neighbour key old metric stored linked
    · rw [advertised, infinite, safeExtend_infinity]

theorem Filed.of_quiet (quiet : Quiet s t) (filed : Filed s) : Filed t := by
  refine filed.inherit quiet.config quiet.selected (fun _ neighbour _ _ => quiet.metrics neighbour)
    fun entry candidate found => ?_
  rw [quiet.candidates] at found
  exact ⟨candidate, found, Inherits.refl candidate⟩

end Metric

theorem core_eq_iff {first second : Candidate} (same : first.core = second.core) :
    first.key = second.key ∧ first.routerId = second.routerId ∧ first.seqno = second.seqno ∧
      first.advertisedMetric = second.advertisedMetric ∧ first.metric = second.metric ∧
      first.nextHop = second.nextHop ∧ first.interface = second.interface := by
  simp only [Candidate.core, Candidate.mk.injEq] at same
  exact ⟨same.1, same.2.1, same.2.2.1, same.2.2.2.1, same.2.2.2.2.1, same.2.2.2.2.2.1,
    same.2.2.2.2.2.2.1⟩

def SameCores (s t : Engine P M) : Prop :=
  ∀ entry, (t.candidates.get? entry).map Candidate.core =
    (s.candidates.get? entry).map Candidate.core

variable {candidate : Candidate}

theorem SameCores.find (same : SameCores s t) {entry : RouteKey × NeighborKey}
    (found : t.candidates.get? entry = some candidate) :
    ∃ other, s.candidates.get? entry = some other ∧ other.core = candidate.core := by
  have cores := same entry
  rw [found, Option.map_some] at cores
  exact Option.map_eq_some_iff.mp cores.symm

/-- Feasibility reads the selected routes and the source table at one source. -/
theorem candidateIsFeasible_congr {first second : Candidate} (selected : t.selected = s.selected)
    (source : t.feasible.get? (second.key, second.routerId) =
      s.feasible.get? (second.key, second.routerId)) (same : first.core = second.core) :
    t.candidateIsFeasible second = s.candidateIsFeasible first := by
  obtain ⟨keyEq, routerEq, seqnoEq, advertisedEq, _, hopEq, interfaceEq⟩ := core_eq_iff same
  simp only [candidateIsFeasible, sourceFeasible, Candidate.realises, Candidate.distance, selected,
    source, keyEq, routerEq, seqnoEq, advertisedEq, hopEq, interfaceEq]

/-- A candidate of a key without a route is feasible exactly by the source table. -/
theorem candidateIsFeasible_unselected (absent : s.selected.get? candidate.key = none) :
    s.candidateIsFeasible candidate =
      s.sourceFeasible candidate.key candidate.routerId candidate.distance := by
  simp [candidateIsFeasible, absent]

theorem metric_modify (table : AssocMap NeighborKey (Neighbor M)) (key other : NeighborKey)
    {change : Neighbor M → Neighbor M} (keeps : ∀ state, (change state).metric = state.metric) :
    ((table.modify key change).get? other).map Neighbor.metric =
      (table.get? other).map Neighbor.metric := by
  rw [AssocMap.get?_modify, Option.map_map]
  congr 1
  funext state
  split
  · exact keeps state
  · rfl

/-- The source table agrees on every foreign source of an unselected key. -/
def SourcesKept (s t : Engine P M) : Prop :=
  ∀ key routerId, t.selected.get? key = none → routerId ≠ t.config.routerId →
    t.feasible.get? (key, routerId) = s.feasible.get? (key, routerId)

section Metric
variable [NeighborMetric M]

/-- Coherence survives a change of timers and of the sources it does not read. -/
theorem Settled.transfer (filed : Filed t) (selected : t.selected = s.selected)
    (cores : SameCores s t) (sources : SourcesKept s t) (settled : Settled s) : Settled t where
  backed := by
    intro key route found
    rw [selected] at found
    obtain ⟨neighbour, candidate, stored, same, finite⟩ := settled.backed key route found
    obtain ⟨other, storedNow, coreEq⟩ := SameCores.find (fun entry => (cores entry).symm) stored
    obtain ⟨keyEq, routerEq, seqnoEq, _, metricEq, hopEq, interfaceEq⟩ := core_eq_iff coreEq
    refine ⟨neighbour, other, storedNow, ?_, metricEq ▸ finite⟩
    simp only [same, Candidate.selected, keyEq, routerEq, seqnoEq, metricEq, hopEq, interfaceEq]
  complete := by
    intro key neighbour candidate stored finite feasible
    obtain ⟨other, storedBefore, coreEq⟩ := cores.find stored
    obtain ⟨named, _, foreign⟩ := filed.named key neighbour candidate stored
    by_contra absent
    have unselected : t.selected.get? key = none := by
      rw [Option.eq_none_iff_forall_ne_some]
      exact fun route found => absent ⟨route, found⟩
    have sourceEq := sources key candidate.routerId unselected foreign
    rw [← named] at sourceEq
    rw [candidateIsFeasible_congr selected sourceEq coreEq] at feasible
    obtain ⟨_, _, _, _, metricEq, _, _⟩ := core_eq_iff coreEq
    obtain ⟨route, found⟩ := settled.complete key neighbour other storedBefore
      (metricEq ▸ finite) feasible
    rw [selected, found] at unselected
    cases unselected

end Metric

/-! ## Sources an output leaves alone -/

variable {sent : SentUpdate}

theorem note_get?_other {table : SourceTable} {source : RouteKey × RouterId}
    (other : sent.update.metric ≠ INFINITY → sent.update.key = some source.1 →
      sent.update.routerId ≠ some source.2) :
    (table.note now sent).get? source = table.get? source := by
  unfold SourceTable.note
  split
  next key routerId named routed =>
    split
    next finite =>
      rw [SourceTable.maintain, AssocMap.get?_insert_of_ne]
      rintro rfl
      exact other (by simpa using finite) named routed
    next => rfl
  next => rfl

theorem foldl_note_get?_other {sent : List SentUpdate} {table : SourceTable}
    {source : RouteKey × RouterId}
    (other : ∀ item ∈ sent, item.update.metric ≠ INFINITY → item.update.key = some source.1 →
      item.update.routerId ≠ some source.2) :
    (sent.foldl (SourceTable.note now) table).get? source = table.get? source := by
  induction sent generalizing table with
  | nil => rfl
  | cons item rest ih =>
    rw [List.foldl_cons, ih fun later member => other later (List.mem_cons_of_mem _ member),
      note_get?_other (other item List.mem_cons_self)]

variable {gone : RouteKey → Prop}

/-- A finite licensed Update is of a selected key or of an own origin. -/
theorem Licensed.finite_cases (licensed : Licensed gone s sent)
    (finite : sent.update.metric ≠ INFINITY) :
    (∃ key origin, s.originated.get? key = some origin ∧ sent.update.key = some key ∧
        sent.update.routerId = some s.config.routerId ∧ sent.update.seqno = origin.seqno ∧
        sent.update.metric = origin.metric) ∨
      ∃ route, s.selected.get? route.key = some route ∧ sent.update.key = some route.key ∧
        sent.update.routerId = some route.routerId ∧ sent.update.seqno = route.seqno ∧
        sent.update.metric = route.metric := by
  cases licensed with
  | origin key origin found same =>
    left
    refine ⟨key, origin, found, ?_⟩
    rw [same] at finite ⊢
    exact ⟨rfl, rfl, rfl, advertisement_metric_of_finite finite⟩
  | selected route found same =>
    right
    refine ⟨route, found, ?_⟩
    rw [same] at finite ⊢
    exact ⟨rfl, rfl, rfl, advertisement_metric_of_finite finite⟩
  | absent key named infinite notOriginated notSelected => exact absurd infinite finite
  | lost key named infinite lost notSelected => exact absurd infinite finite

theorem Announces.sourcesKept (announces : Announces gone now s actions t) (keyed : SelectedKeyed s) :
    SourcesKept s t := by
  intro key routerId unselected foreign
  rw [announces.recorded]
  refine foldl_note_get?_other fun sent member finite named routed => ?_
  rw [announces.quiet.selected] at unselected
  rw [announces.quiet.config] at foreign
  rcases (announces.licensed keyed sent member).finite_cases finite with
    ⟨_, _, _, _, own, _⟩ | ⟨route, found, routeKey, _⟩
  · rw [own] at routed
    exact foreign (Option.some.inj routed).symm
  · rw [routeKey] at named
    rw [Option.some.inj named, unselected] at found
    cases found

section Metric
variable [NeighborMetric M] {now : UInt64}

theorem Announces.coherent (announces : Announces gone now s actions t) (filed : Filed s) :
    Filed t ∧ (Settled s → Settled t) := by
  have filedNow := filed.of_quiet announces.quiet
  refine ⟨filedNow, Settled.transfer filedNow announces.quiet.selected ?_
    (announces.sourcesKept filed.keyed)⟩
  intro entry
  rw [announces.quiet.candidates]

theorem reselect_coherent (order : HashOrder) (now : UInt64) (s : Engine P M) (filed : Filed s) :
    Filed (reselect order now s).1 ∧ Settled (reselect order now s).1 := by
  have tables := reselect_tables order now s
  have selected := reselect_selected order now s
  have filedNow : Filed (reselect order now s).1 := by
    refine ⟨⟨?_, ?_, reselect_keyed order now s⟩, ?_⟩
    · intro key neighbour candidate found
      rw [tables.candidates] at found
      rw [tables.config]
      exact filed.named key neighbour candidate found
    · intro key neighbour candidate found
      rw [tables.candidates] at found
      rw [tables.metrics]
      exact filed.known key neighbour candidate found
    · intro neighbour key candidate metric found linked
      rw [tables.candidates] at found
      rw [tables.metrics] at linked
      rw [tables.config]
      exact filed.current neighbour key candidate metric found linked
  have sources : SourcesKept s (reselect order now s).1 := by
    rcases reselect_cases order now s with ⟨silent, _, _⟩ | ⟨delta, _, announced⟩
    · rw [silent]
      exact fun _ _ _ _ => rfl
    · exact announced.sourcesKept (reselectState_keyed order now s)
  refine ⟨filedNow, ?_, ?_⟩
  · intro key route found
    rw [selected] at found
    obtain ⟨candidate, stored, fit, named, same⟩ := reselectState_chosen order now s found
    obtain ⟨⟨storedKey, neighbour⟩, located⟩ := AssocMap.mem_values_iff.mp stored
    have filedKey := (filed.named storedKey neighbour candidate located).1
    have keyEq : storedKey = key := filedKey.symm.trans named
    refine ⟨neighbour, candidate, ?_, same, ?_⟩
    · rw [tables.candidates, ← keyEq]
      exact located
    · simp only [usable, Bool.and_eq_true, decide_eq_true_eq] at fit
      exact fit.1
  · intro key neighbour candidate stored finite feasible
    obtain ⟨named, _, foreign⟩ := filedNow.named key neighbour candidate stored
    by_contra absent
    have unselected : (reselect order now s).1.selected.get? key = none := by
      rw [Option.eq_none_iff_forall_ne_some]
      exact fun route found => absent ⟨route, found⟩
    rw [tables.candidates] at stored
    have sourceEq := sources key candidate.routerId unselected foreign
    -- Without a route the candidate is feasible by the source table, as it was before.
    rw [candidateIsFeasible_unselected (by rw [named]; exact unselected)] at feasible
    have fit : s.usable candidate = true := by
      have before : s.sourceFeasible candidate.key candidate.routerId candidate.distance = true := by
        rw [← feasible, named]
        simp only [sourceFeasible, sourceEq]
      simp [usable, finite, candidateIsFeasible, before]
    obtain ⟨route, found⟩ := reselectState_complete order now s
      (AssocMap.mem_values_iff.mpr ⟨_, stored⟩) fit
    rw [← selected, named] at found
    exact absent ⟨route, found⟩

/-! ## Route TLVs -/

/-- Coherence is kept, or the flag asks for reselection. -/
def CoherentUnless (flag : Bool) (s t : Engine P M) : Prop :=
  Filed s → Filed t ∧ (flag = false → Settled s → Settled t)

/-- Unflagged changes leave the cores of all candidates and the foreign sources
of unselected keys alone. -/
theorem CoherentUnless.intro {flag : Bool} (filed : Filed s → Filed t)
    (selected : t.selected = s.selected) (cores : Filed s → flag = false → SameCores s t)
    (sources : Filed s → Settled s → flag = false → SourcesKept s t) : CoherentUnless flag s t :=
  fun before => ⟨filed before, fun unflagged settled =>
    settled.transfer (filed before) selected (cores before unflagged)
      (sources before settled unflagged)⟩

theorem retractCandidate_of_retracted (retracted : notRetracted candidate = false) :
    retractCandidate candidate = candidate := by
  simp only [notRetracted, Bool.or_eq_false_iff, bne_eq_false_iff_eq] at retracted
  cases candidate
  simp_all [retractCandidate]

theorem retractAll_coherent (neighbour : NeighborKey) (s : Engine P M) :
    CoherentUnless (s.retractAll neighbour).changed s (s.retractAll neighbour).engine := by
  refine CoherentUnless.intro ?_ rfl ?_ fun _ _ _ _ _ _ _ => rfl
  · refine Filed.inherit rfl rfl (fun _ _ _ _ => rfl) fun entry candidate found => ?_
    simp only [retractAll, AssocMap.get?_mapValues, Option.map_eq_some_iff] at found
    obtain ⟨old, stored, rfl⟩ := found
    refine ⟨old, stored, ?_⟩
    split
    · exact Inherits.retract old
    · exact Inherits.refl old
  · intro _ unflagged entry
    simp only [retractAll, AssocMap.get?_mapValues, Option.map_map]
    cases stored : s.candidates.get? entry with
    | none => rfl
    | some old =>
      simp only [Option.map_some, Function.comp]
      split
      next here =>
        have retracted : notRetracted old = false := by
          have none := List.any_eq_false.mp unflagged _ (AssocMap.get?_eq_some_iff.mp stored)
          simpa [here] using none
        rw [retractCandidate_of_retracted retracted]
      next => rfl

theorem retractOne_coherent (entry : RouteKey × NeighborKey) (s : Engine P M) :
    CoherentUnless (s.retractOne entry).changed s (s.retractOne entry).engine := by
  refine CoherentUnless.intro ?_ rfl ?_ fun _ _ _ _ _ _ _ => rfl
  · refine Filed.inherit rfl rfl (fun _ _ _ _ => rfl) fun other candidate found => ?_
    simp only [retractOne, AssocMap.get?_modify, Option.map_eq_some_iff] at found
    obtain ⟨old, stored, rfl⟩ := found
    refine ⟨old, stored, ?_⟩
    split
    · exact Inherits.retract old
    · exact Inherits.refl old
  · intro _ unflagged other
    simp only [retractOne, AssocMap.get?_modify]
    cases stored : s.candidates.get? other with
    | none => rfl
    | some old =>
      rw [Option.map_some]
      split
      next here =>
        have retracted : notRetracted old = false := by
          simpa [retractOne, ← here, stored] using unflagged
        rw [retractCandidate_of_retracted retracted]
      next => rfl

theorem rejectByPolicy_coherent (entry : RouteKey × NeighborKey) (s : Engine P M) :
    CoherentUnless (s.rejectByPolicy entry).changed s (s.rejectByPolicy entry).engine := by
  unfold rejectByPolicy
  by_cases stored : s.candidates.containsKey entry = true
  · simp only [stored, if_true]
    refine CoherentUnless.intro ?_ rfl (fun _ flag => by cases flag) fun _ _ _ _ _ _ _ => rfl
    refine Filed.inherit rfl rfl (fun key neighbour candidate _ => ?_) fun other candidate found => ?_
    · exact metric_modify s.neighbours entry.2 neighbour fun _ => rfl
    · rw [AssocMap.get?_remove] at found
      split at found
      · cases found
      · exact ⟨candidate, found, Inherits.refl candidate⟩
  · simp only [stored]
    exact fun filed => ⟨filed, fun _ settled => settled⟩

theorem rejectByLimit_coherent (neighbour : NeighborKey) (perNeighbor : Bool) (s : Engine P M) :
    CoherentUnless (s.rejectByLimit neighbour perNeighbor).changed s
      (s.rejectByLimit neighbour perNeighbor).engine := by
  refine CoherentUnless.intro ?_ rfl (fun _ _ _ => rfl) fun _ _ _ _ _ _ _ => rfl
  refine Filed.inherit rfl rfl (fun key other candidate _ => ?_) fun other candidate found =>
    ⟨candidate, found, Inherits.refl candidate⟩
  exact metric_modify s.neighbours neighbour other fun _ => rfl

variable {metric : UInt16}

theorem unchanged_core {old : Candidate} {update : FiniteUpdate}
    (same : candidateChanges (some old) update metric = false) (key : old.key = update.key)
    (interface : old.interface = neighbour.interface) :
    (storedCandidate neighbour update metric now).core = old.core := by
  simp only [candidateChanges, Bool.or_eq_false_iff, bne_eq_false_iff_eq] at same
  obtain ⟨⟨⟨⟨routerId, seqno⟩, metricEq⟩, advertised⟩, nextHop⟩ := same
  simp [storedCandidate, Candidate.core, key, interface, routerId, seqno, metricEq, advertised,
    nextHop]

omit [NeighborMetric M] in
/-- Answers are about one source, and finite only with a finite metric. -/
theorem Answers.finite_cases {asked : NeighborKey → Prop} {update : FiniteUpdate}
    (answers : Answers asked update metric now s actions t) (member : sent ∈ sentUpdates actions)
    (finite : sent.update.metric ≠ INFINITY) :
    sent.update.key = some update.key ∧ sent.update.routerId = some update.routerId ∧
      sent.update.seqno = update.seqno ∧ sent.update.metric = metric ∧ metric ≠ INFINITY := by
  obtain ⟨_, _, same⟩ := answers.replies sent member
  rw [same] at finite ⊢
  have metricEq := advertisement_metric_of_finite finite
  exact ⟨rfl, rfl, rfl, metricEq, metricEq ▸ finite⟩

theorem lt_infinity_of_ne (finite : metric ≠ INFINITY) : metric < INFINITY := by
  rcases UInt16.lt_or_eq_of_le (UInt16.le_iff_toNat_le.mpr
    (show metric.toNat ≤ INFINITY.toNat from Nat.le_of_lt_succ metric.toNat_lt)) with less | equal
  · exact less
  · exact absurd equal finite

section Stored
variable {neighbour : NeighborKey} {finite : FiniteUpdate} {state : Neighbor M}
  {s settled : Engine P M} {actions : List Action}
  (known : s.neighbours.get? neighbour = some state)
  (requests : Announces nothingLost now s actions settled ∧ sentUpdates actions = [] ∨
    s.sourceFeasible finite.key finite.routerId finite.distance = true ∧
      Answers (s.awaits finite) finite (s.extendedMetric state finite) now s actions settled)

include requests in
theorem requests_quiet : Quiet s settled := by
  rcases requests with ⟨announces, _⟩ | ⟨_, answers⟩
  · exact announces.quiet
  · exact answers.quiet

include known requests in
theorem storeCandidate_filed (admitted : s.admissible neighbour finite = true) (filed : Filed s) :
    Filed (settled.storeCandidate neighbour finite (s.extendedMetric state finite) now) := by
  have quiet := requests_quiet requests
  have filedNow := filed.of_quiet quiet
  have metrics : ∀ other,
      (settled.storeCandidate neighbour finite (s.extendedMetric state finite) now).metricOf other =
        settled.metricOf other := by
    intro other
    simp only [storeCandidate, metricOf]
    split
    · rfl
    · exact metric_modify settled.neighbours neighbour other fun _ => rfl
  have linked : settled.metricOf neighbour = some state.metric := by
    rw [quiet.metrics]
    simp [metricOf, known]
  have foreign : finite.routerId ≠ s.config.routerId := by
    simp only [admissible, Bool.and_eq_true, bne_iff_ne] at admitted
    exact admitted.1.1.2
  refine ⟨⟨?_, ?_, filedNow.keyed⟩, ?_⟩
  · intro key other candidate found
    simp only [storeCandidate, AssocMap.get?_insert] at found
    split at found
    next here =>
      obtain ⟨rfl, rfl⟩ := Prod.mk.inj here
      cases found
      exact ⟨rfl, rfl, quiet.config ▸ foreign⟩
    next => exact filedNow.named key other candidate found
  · intro key other candidate found
    rw [metrics]
    simp only [storeCandidate, AssocMap.get?_insert] at found
    split at found
    next here =>
      obtain ⟨rfl, rfl⟩ := Prod.mk.inj here
      exact ⟨_, linked⟩
    next => exact filedNow.known key other candidate found
  · intro other key candidate metric found current
    rw [metrics] at current
    simp only [storeCandidate, AssocMap.get?_insert] at found
    split at found
    next here =>
      obtain ⟨rfl, rfl⟩ := Prod.mk.inj here
      cases found
      rw [linked] at current
      cases current
      simp only [extendedMetric, storeCandidate, quiet.config, storedCandidate]
    next => exact filedNow.current other key candidate metric found current

include known requests in
/-- An Update that changes nothing selection reads can still have been answered,
but then its key has a route. -/
theorem storeCandidate_coherent (admitted : s.admissible neighbour finite = true) :
    CoherentUnless
      (candidateChanges (s.candidates.get? (finite.key, neighbour)) finite
        (s.extendedMetric state finite)) s
      (settled.storeCandidate neighbour finite (s.extendedMetric state finite) now) := by
  have quiet := requests_quiet requests
  have unchanged : Filed s → candidateChanges (s.candidates.get? (finite.key, neighbour)) finite
      (s.extendedMetric state finite) = false → ∃ old,
        s.candidates.get? (finite.key, neighbour) = some old ∧
        (storedCandidate neighbour finite (s.extendedMetric state finite) now).core = old.core := by
    intro filed unflagged
    cases stored : s.candidates.get? (finite.key, neighbour) with
    | none =>
      rw [stored] at unflagged
      cases unflagged
    | some old =>
      rw [stored] at unflagged
      obtain ⟨key, interface, _⟩ := filed.named _ _ old stored
      exact ⟨old, rfl, unchanged_core unflagged key interface⟩
  refine CoherentUnless.intro (storeCandidate_filed known requests admitted) quiet.selected ?_ ?_
  · intro filed unflagged entry
    obtain ⟨old, stored, same⟩ := unchanged filed unflagged
    simp only [storeCandidate, AssocMap.get?_insert, quiet.candidates]
    split
    next here =>
      rw [← here, stored, Option.map_some, Option.map_some, same]
    next => rfl
  · intro filed coherent unflagged
    rcases requests with ⟨announces, _⟩ | ⟨feasible, answers⟩
    · exact announces.sourcesKept filed.keyed
    · intro key routerId unselected foreign
      show settled.feasible.get? _ = _
      rw [answers.recorded]
      refine foldl_note_get?_other fun sent member isFinite named routed => ?_
      obtain ⟨sentKey, sentRouter, _, _, finiteMetric⟩ := answers.finite_cases member isFinite
      rw [sentKey] at named
      obtain ⟨old, stored, same⟩ := unchanged filed unflagged
      obtain ⟨storedKey, routerEq, seqnoEq, advertisedEq, metricEq, _, _⟩ := core_eq_iff same
      have usable : s.candidateIsFeasible old = true := by
        have distance : old.distance = finite.distance := by
          simp [Candidate.distance, FiniteUpdate.distance, ← seqnoEq, ← advertisedEq,
            storedCandidate]
        simp only [candidateIsFeasible, distance, ← storedKey, ← routerEq]
        simp [storedCandidate, feasible]
      obtain ⟨route, found⟩ := coherent.complete _ _ old stored
        (metricEq ▸ lt_infinity_of_ne finiteMetric) usable
      have absent : settled.selected.get? key = none := unselected
      have keyEq : finite.key = key := Option.some.inj named
      rw [quiet.selected, ← keyEq, found] at absent
      cases absent

end Stored

theorem UpdateEffect.coherent {update : ResolvedUpdate} {outcome : UpdateOutcome P M}
    (effect : UpdateEffect neighbour now update s outcome) :
    CoherentUnless outcome.changed s outcome.engine := by
  cases effect with
  | announced announces _ =>
    exact fun filed => ⟨(announces.coherent filed).1, fun _ => (announces.coherent filed).2⟩
  | retractedAll _ _ => exact retractAll_coherent neighbour s
  | retracted key _ _ => exact retractOne_coherent (key, neighbour) s
  | rejected finite _ => exact rejectByPolicy_coherent (finite.key, neighbour) s
  | limited perNeighbor => exact rejectByLimit_coherent neighbour perNeighbor s
  | stored finite state resolved admitted known _ current requests =>
    exact storeCandidate_coherent known requests admitted

theorem bumpSequenceNumber_coherent (s : Engine P M) (filed : Filed s) :
    Filed s.bumpSequenceNumber ∧ (Settled s → Settled s.bumpSequenceNumber) :=
  ⟨Filed.inherit (s := s) rfl rfl (fun _ _ _ _ => rfl)
    (fun _ candidate found => ⟨candidate, found, Inherits.refl candidate⟩) filed,
    fun settled => ⟨settled.backed, settled.complete⟩⟩

theorem TlvEffect.coherent {tlv : Tlv} {changed : Bool}
    (effect : TlvEffect neighbour now tlv s actions t changed) : CoherentUnless changed s t := by
  cases effect with
  | announced announces _ =>
    exact fun filed => ⟨(announces.coherent filed).1, fun _ => (announces.coherent filed).2⟩
  | bumped key own announces _ =>
    intro filed
    have bumped := bumpSequenceNumber_coherent s filed
    exact ⟨(announces.coherent bumped.1).1, fun flag => by cases flag⟩
  | updated update isUpdate effect => exact effect.coherent

theorem get?_recomputed (only : Option NeighborKey) (s : Engine P M)
    (entry : RouteKey × NeighborKey) :
    (s.recomputeCandidateMetrics only).1.candidates.get? entry =
      (s.candidates.get? entry).map fun candidate =>
        { candidate with metric := s.recomputedMetric only entry.2 candidate } :=
  AssocMap.get?_mapValues s.candidates _ entry

end Metric

end Engine

end BabelRs
