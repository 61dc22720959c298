import BabelRs.Safety.Stages
import Mathlib.Data.List.Chain

/-!
# A host that replays snapshots sees the engine

Every change of the selected routes or of the held keys is reported before the
event returns, by exactly one `routesChanged` per counted generation.
-/

set_option autoImplicit false

namespace BabelRs

open Lib Lib.Effect

/-- A host's copy of the learned routes and of the unreachable set. -/
abbrev Mirror := List SelectedRoute × List RouteKey

def applySnapshot (mirror : Mirror) : Action → Mirror
  | .routesChanged _ routes unreachable => (routes, unreachable)
  | _ => mirror

def generationOf : Action → Option UInt64
  | .routesChanged generation _ _ => some generation
  | _ => none

def generations (actions : List Action) : List UInt64 := actions.filterMap generationOf

/-- Counting up by one from `first` to `last`, modulo 2^64. -/
inductive Counts : UInt64 → List UInt64 → UInt64 → Prop
  | done (count : UInt64) : Counts count [] count
  | next {count last : UInt64} {rest : List UInt64} (later : Counts (count + 1) rest last) :
      Counts count ((count + 1) :: rest) last

theorem Counts.append {first middle last : UInt64} {early late : List UInt64}
    (left : Counts first early middle) (right : Counts middle late last) :
    Counts first (early ++ late) last := by
  induction left with
  | done count => exact right
  | next later ih => exact .next (ih right)

theorem Counts.isChain {first last : UInt64} {counted : List UInt64}
    (counts : Counts first counted last) :
    (first :: counted).IsChain fun earlier later => later = earlier + 1 := by
  induction counts with
  | done count => exact List.IsChain.singleton count
  | next later ih => exact List.isChain_cons_cons.mpr ⟨rfl, ih⟩

namespace Engine

variable {P M : Type} {now : UInt64}
variable {s t : Engine P M} {actions : List Action}

def view (engine : Engine P M) : Mirror := (engine.selectedRoutes, engine.unreachableRoutes)

/-! ## Steps without a snapshot -/

/-- Nothing a host sees changes and nothing is reported. -/
structure Unseen (s : Engine P M) (actions : List Action) (t : Engine P M) : Prop where
  unreported : ∀ action ∈ actions, isRoutesChanged action = false
  selected : t.selected = s.selected
  tombstones : t.tombstones = s.tombstones
  generation : t.generation = s.generation

theorem foldl_applySnapshot_unreported
    (unreported : ∀ action ∈ actions, isRoutesChanged action = false) (mirror : Mirror) :
    actions.foldl applySnapshot mirror = mirror := by
  induction actions generalizing mirror with
  | nil => rfl
  | cons action rest ih =>
    have same : applySnapshot mirror action = mirror := by
      have plain := unreported action List.mem_cons_self
      cases action <;> first | rfl | cases plain
    rw [List.foldl_cons, same]
    exact ih (fun other member => unreported other (List.mem_cons_of_mem _ member)) mirror

theorem generations_unreported (unreported : ∀ action ∈ actions, isRoutesChanged action = false) :
    generations actions = [] := by
  refine List.filterMap_eq_nil_iff.mpr fun action member => ?_
  have plain := unreported action member
  cases action <;> first | rfl | cases plain

/-- The host's mirror follows the engine, and generations are counted. -/
structure Shown (s : Engine P M) (actions : List Action) (t : Engine P M) : Prop where
  mirrored : actions.foldl applySnapshot s.view = t.view
  counted : Counts s.generation (generations actions) t.generation

theorem counted_chains : Chains fun (s : Engine P M) (actions : List Action) t =>
    Counts s.generation (generations actions) t.generation where
  refl := fun s => .done s.generation
  trans := by
    intro s middle t first second left right
    rw [generations, List.filterMap_append]
    exact left.append right

theorem shown_chains : Chains (Shown (P := P) (M := M)) where
  refl := fun s => ⟨rfl, counted_chains.refl s⟩
  trans := by
    intro s middle t first second left right
    refine ⟨?_, counted_chains.trans left.counted right.counted⟩
    rw [List.foldl_append, left.mirrored, right.mirrored]

theorem Unseen.shown (unseen : Unseen s actions t) :
    Shown s actions t := by
  refine ⟨?_, ?_⟩
  · rw [foldl_applySnapshot_unreported unseen.unreported]
    simp only [view, selectedRoutes, unreachableRoutes, unseen.selected, unseen.tombstones]
  · rw [generations_unreported unseen.unreported, unseen.generation]
    exact .done s.generation

theorem isRoutesChanged_of_isSend {action : Action} (send : action.isSend = true) :
    isRoutesChanged action = false := by
  cases action <;> first | rfl | cases send

theorem Announces.unseen {gone : RouteKey → Prop} (announces : Announces gone now s actions t) :
    Unseen s actions t :=
  ⟨fun action member => isRoutesChanged_of_isSend (announces.sends action member),
    announces.quiet.selected, announces.quiet.tombstones, announces.quiet.generation⟩

theorem Unseen.silent (selected : t.selected = s.selected)
    (tombstones : t.tombstones = s.tombstones) (generation : t.generation = s.generation) :
    Unseen s [] t :=
  ⟨by simp, selected, tombstones, generation⟩

/-! ## Snapshots -/

/-- After a snapshot the mirror is the view, whatever it was before. -/
theorem routeSnapshot_mirrors (s : Engine P M) (mirror : Mirror) :
    (routeSnapshot s).2.foldl applySnapshot mirror = (routeSnapshot s).1.view := rfl

theorem routeSnapshot_counted (s : Engine P M) :
    Counts s.generation (generations (routeSnapshot s).2) (routeSnapshot s).1.generation :=
  .next (.done _)

theorem shown_of_snapshot (middle : Engine P M) (same : middle.generation = s.generation) :
    Shown s (routeSnapshot middle).2 (routeSnapshot middle).1 := by
  refine ⟨routeSnapshot_mirrors middle s.view, ?_⟩
  rw [← same]
  exact routeSnapshot_counted middle

/-- A reported reselection shows the mirror its new view, whatever it held. -/
theorem reported_shown {gone : RouteKey → Prop} {n : Engine P M} {count : UInt64}
    {delta : List Action}
    (announced : Announces gone now { n with generation := count + 1 } delta t) (mirror : Mirror) :
    (Action.routesChanged (count + 1) n.selectedRoutes n.unreachableRoutes :: delta).foldl
        applySnapshot mirror = t.view ∧
      Counts count (generations
        (.routesChanged (count + 1) n.selectedRoutes n.unreachableRoutes :: delta)) t.generation := by
  have unseen := announced.unseen
  refine ⟨?_, ?_⟩
  · rw [List.foldl_cons, foldl_applySnapshot_unreported unseen.unreported]
    simp only [applySnapshot, view, selectedRoutes, unreachableRoutes, unseen.selected,
      unseen.tombstones]
  · have counted : generations
        (.routesChanged (count + 1) n.selectedRoutes n.unreachableRoutes :: delta) =
          (count + 1) :: generations delta := rfl
    rw [counted, generations_unreported unseen.unreported, unseen.generation]
    exact .next (.done _)

theorem reselect_shown (order : HashOrder) :
    Meets (Shown (P := P) (M := M)) (reselect order now) := by
  intro s
  rcases reselect_cases order now s with ⟨silent, selected, held⟩ | ⟨delta, actions, announced⟩
  · rw [silent]
    refine ⟨?_, .done _⟩
    simp only [List.foldl_nil, view, selectedRoutes, unreachableRoutes, selected, held]
  · rw [actions]
    obtain ⟨mirrored, counted⟩ := reported_shown announced s.view
    exact ⟨mirrored, counted⟩

/-- Aging drops holds without a word; the reselection or the extra snapshot that
follows reports it. -/
theorem tickRoutes_shown (order : HashOrder) (routesMayHaveChanged : Bool) (s u : Engine P M)
    (selected : u.selected = s.selected) (generation : u.generation = s.generation)
    (collected : u.tombstones = s.tombstones.retain fun _ expires => decide (expires ≥ now)) :
    Shown s (tickRoutes order now s.tombstones.len routesMayHaveChanged u).2
      (tickRoutes order now s.tombstones.len routesMayHaveChanged u).1 := by
  -- With as many holds as before the tick, none was dropped.
  have kept : ∀ n : Engine P M, n.selected = u.selected → n.tombstones.keys = u.tombstones.keys →
      s.tombstones.len = n.tombstones.len → n.view = s.view := by
    intro n sameRoutes sameHolds sameCount
    have count : u.tombstones.len = s.tombstones.len :=
      (OrdMap.len_eq_of_keys sameHolds).symm.trans sameCount.symm
    have holds : u.tombstones = s.tombstones := by
      rw [collected] at count ⊢
      exact OrdMap.retain_eq_of_len count
    simp only [view, selectedRoutes, unreachableRoutes, sameRoutes, sameHolds, selected, holds]
  -- The state before the extra snapshot, when nothing has been reported yet.
  have extra : ∀ n : Engine P M, n.selected = u.selected → n.tombstones.keys = u.tombstones.keys →
      n.generation = u.generation →
      Shown s
        (if s.tombstones.len != n.tombstones.len && true then
          ((routeSnapshot n).1, ([] : List Action) ++ (routeSnapshot n).2) else (n, [])).2
        (if s.tombstones.len != n.tombstones.len && true then
          ((routeSnapshot n).1, ([] : List Action) ++ (routeSnapshot n).2) else (n, [])).1 := by
    intro n sameRoutes sameHolds sameGeneration
    by_cases count : s.tombstones.len = n.tombstones.len
    · simp only [count, bne_self_eq_false, Bool.false_and, Bool.false_eq_true, if_false]
      refine ⟨(kept n sameRoutes sameHolds count).symm, ?_⟩
      rw [sameGeneration, generation]
      exact .done _
    · have differs : (s.tombstones.len != n.tombstones.len && true) = true := by simp [count]
      rw [if_pos differs]
      exact shown_of_snapshot n (sameGeneration.trans generation)
  unfold tickRoutes when
  by_cases due : (routesMayHaveChanged || !u.pendingSwitches.entries.isEmpty) = true
  · simp only [due, if_true]
    rcases reselect_cases order now u with ⟨silent, sameRoutes, sameHolds⟩ | ⟨delta, actions, announced⟩
    · rw [silent]
      exact extra _ sameRoutes sameHolds rfl
    · have reported : (reselect order now u).2.any isRoutesChanged = true := by
        rw [actions]
        rfl
      rw [reported]
      simp only [Bool.not_true, Bool.and_false, Bool.false_eq_true, if_false]
      rw [actions]
      obtain ⟨mirrored, counted⟩ := reported_shown announced s.view
      rw [generation] at counted mirrored
      rw [generation]
      exact ⟨mirrored, counted⟩
  · simp only [due, Bool.false_eq_true, if_false, List.any_nil, Bool.not_false]
    exact extra u rfl rfl rfl

/-! ## The moves of an event -/

section Moves
variable {ticks : Bool}

theorem Shown.silent (selected : t.selected = s.selected)
    (tombstones : t.tombstones = s.tombstones) (generation : t.generation = s.generation) :
    Shown s [] t :=
  (Unseen.silent selected tombstones generation).shown

theorem Reconfigures.shown (reconfigures : Reconfigures s t) : Shown s [] t :=
  .silent reconfigures.selected reconfigures.tombstones reconfigures.generation

theorem utterances_shown (utterances : Steps (Utterance ticks now) s actions t) :
    Shown s actions t :=
  (utterances_announces utterances : Announces nothingLost now s actions t).unseen.shown

theorem Reselects.shown (reselects : Reselects now s actions t) : Shown s actions t := by
  cases reselects with
  | skipped => exact shown_chains.refl s
  | taken order => exact reselect_shown order s

/-- Output counts its snapshots, also where it leaves a hold unreported. -/
theorem Output.counted (output : Output ticks now s actions t) :
    Counts s.generation (generations actions) t.generation := by
  cases output.coda with
  | announced announces => exact announces.unseen.shown.counted
  | reported => exact routeSnapshot_counted s
  | held _ _ _ => exact .done s.generation
  | lifted _ _ => exact .done s.generation

theorem Conclusion.shown (conclusion : Conclusion ticks now s actions t) : Shown s actions t := by
  cases conclusion with
  | said utterance => exact utterances_shown (.single utterance)
  | @settled earlier middle outputs =>
    have counted := outputs.fold counted_chains Output.counted
    refine ⟨?_, counted_chains.trans counted (routeSnapshot_counted middle)⟩
    rw [List.foldl_append]
    exact routeSnapshot_mirrors middle _

theorem Edit.shown {before : Engine P M} {event : Event P}
    (edit : Edit before event s actions t) : Shown s actions t := by
  cases edit with
  | scheduled key => exact Shown.silent rfl rfl rfl
  | lifted key => exact shown_of_snapshot { s with tombstones := s.tombstones.remove key } rfl
  | bumped =>
    have unseen : Unseen s [.sequenceNumberChanged (s.sequenceNumber + 1)] s.bumpSequenceNumber :=
      ⟨by simp [isRoutesChanged], rfl, rfl, rfl⟩
    exact unseen.shown
  | reoriginated origins _ _ => exact Shown.silent rfl rfl rfl

theorem edited_shown {before : Engine P M} {event : Event P}
    (phase : Phase (Edit before event) ticks now s actions t) : Shown s actions t := by
  obtain ⟨edits, reselects, coda⟩ := phase
  exact shown_chains.trans (shown_chains.trans (edits.fold shown_chains Edit.shown) reselects.shown)
    (coda.fold shown_chains Conclusion.shown)

end Moves

section Metric
variable [NeighborMetric M] (order : HashOrder)

theorem TlvEffect.unseen {neighbour : NeighborKey} {tlv : Tlv} {changed : Bool}
    (effect : TlvEffect neighbour now tlv s actions t changed) : Unseen s actions t := by
  cases effect with
  | announced announces _ => exact announces.unseen
  | bumped key own announces _ =>
    have unseen := announces.unseen
    refine ⟨?_, unseen.selected, unseen.tombstones, unseen.generation⟩
    intro action member
    rcases List.mem_cons.mp member with rfl | later
    · rfl
    · exact unseen.unreported action later
  | updated update isUpdate effect =>
    cases effect with
    | announced announces _ => exact announces.unseen
    | retractedAll _ _ => exact Unseen.silent rfl rfl rfl
    | retracted _ _ _ => exact Unseen.silent rfl rfl rfl
    | rejected finite _ =>
      simp only [rejectByPolicy]
      split
      · exact Unseen.silent rfl rfl rfl
      · exact Unseen.silent rfl rfl rfl
    | limited _ => exact Unseen.silent rfl rfl rfl
    | stored _ _ _ _ _ _ _ requests =>
      rcases requests with ⟨announces, _⟩ | ⟨_, answers⟩
      · have unseen := announces.unseen
        exact ⟨unseen.unreported, unseen.selected, unseen.tombstones, unseen.generation⟩
      · exact ⟨fun action member => isRoutesChanged_of_isSend (answers.sends action member),
          answers.quiet.selected, answers.quiet.tombstones, answers.quiet.generation⟩

variable [MetricProfile P M]

theorem PacketPhase.shown {neighbour : NeighborKey} {tlvs : List Tlv}
    (phase : PacketPhase neighbour now tlvs s actions t) : Shown s actions t := by
  refine phase.fold shown_chains (fun observation => ?_)
    (fun utterance => utterances_shown (.single utterance)) (fun {tlv} _ order state => ?_)
    Reselects.shown
  · obtain ⟨rfl, senses⟩ := observation.senses
    exact senses.toReconfigures.shown
  · obtain ⟨_, _, effect⟩ := receiveTlv_effect order neighbour now tlv state
    exact effect.unseen.shown

theorem tick_shown : Meets (Shown (P := P) (M := M)) (tick order now) := by
  intro s
  have sensing := ageState_sensing order now s
  have settled := tickRoutes_shown order (s.ageState order now).routesMayHaveChanged s
    (s.ageState order now).engine (ageState_selected order now s) sensing.generation
    (ageState_tombstones order now s)
  exact shown_chains.trans settled (utterances_shown (tickOutput_utters order s _))

theorem Stage.shown {ticks : Bool} (stage : Stage ticks order now s actions t) :
    Shown s actions t := by
  cases stage with
  | adjusted change => exact change.reconfigures.shown
  | invalidated =>
    have unseen : Unseen s [.invalidatePendingSends] s := ⟨by simp [isRoutesChanged], rfl, rfl, rfl⟩
    exact unseen.shown
  | purged change => exact shown_chains.after_silent change.reconfigures.shown (reselect_shown order _)
  | reset interface policy =>
    refine shown_chains.after_silent ?_ (when_reselects order _ _).shown
    exact Shown.silent rfl rfl rfl
  | said utterance => exact utterances_shown (.single utterance)
  | ticked _ => exact tick_shown order s

theorem handleValidated_shown (event : Event P) :
    Meets (Shown (P := P) (M := M)) (handleValidated order event) := by
  intro s
  cases event with
  | packetReceived interface source packet now =>
    exact (receive_phase order interface source packet _ s).shown
  | packetReceivedWithTimestamp interface source packet now timestamp =>
    exact (receive_phase order interface source packet timestamp s).shown
  | originate key metric now => exact edited_shown (originate_phase order key metric s)
  | withdraw key now => exact edited_shown (removeOrigin_phase order key _ s)
  | replaceOrigins origins now => exact edited_shown (replaceOrigins_phase order origins s)
  | _ => exact (handleValidated_stages order _ rfl rfl s).fold shown_chains (Stage.shown order)

/-- A host that overwrites its mirror with every snapshot of a run holds the
engine's routes and unreachable set, and the generations count up by one. -/
theorem replayed_snapshots_show_engine {history : List (Event P × List Action)}
    {engine : Engine P M} (run : RunOf anyEvent history engine) :
    (history.flatMap Prod.snd).foldl applySnapshot ([], []) =
        (engine.selectedRoutes, engine.unreachableRoutes) ∧
      (generations (history.flatMap Prod.snd)).IsChain fun earlier later => later = earlier + 1 := by
  have shown : (history.flatMap Prod.snd).foldl applySnapshot ([], []) = engine.view ∧
      Counts 0 (generations (history.flatMap Prod.snd)) engine.generation := by
    refine run.invariant (fun history engine =>
      (history.flatMap Prod.snd).foldl applySnapshot ([], []) = engine.view ∧
        Counts 0 (generations (history.flatMap Prod.snd)) engine.generation) ?_ ?_
    · intro s starts
      obtain ⟨config, _, rfl⟩ := starts.eq_initial
      exact ⟨rfl, .done 0⟩
    · rintro history s event actions t ⟨mirrored, counted⟩ ⟨_, order, handled⟩
      obtain ⟨_, rfl, rfl⟩ := tryHandle_ok handled
      have stepped := handleValidated_shown order event s
      rw [List.flatMap_append, List.flatMap_singleton, List.foldl_append, mirrored]
      refine ⟨stepped.mirrored, ?_⟩
      rw [generations, List.filterMap_append]
      exact counted.append stepped.counted
  exact ⟨shown.1, shown.2.isChain.tail⟩

end Metric

section Concrete
open Conformance

/-- A route is learned from one neighbour and retracted again. -/
def lossSteps : List (Event BuiltinProfile) :=
  [.interfaceUp (link 1) [] 0,
    packet (link 1) (address 2) (greeting 96) 1,
    packet (link 1) (address 2) [routeUpdate destination (address 2) (nodeId 1) 100 0] 2,
    packet (link 1) (address 2) [routeUpdate destination (address 2) (nodeId 1) 100 INFINITY] 3]

/-- Two generations are replayed; the host then holds one unreachable key. -/
theorem replayed_snapshots_after_loss :
    ∃ (history : List (Event BuiltinProfile × List Action)) (engine : Harness),
      RunOf anyEvent history engine ∧ generations (history.flatMap Prod.snd) = [1, 2] ∧
        (history.flatMap Prod.snd).foldl applySnapshot ([], []) = ([], [destination]) := by
  obtain ⟨history, engine, run, counted, noRoutes, held⟩ := run_of_checked_play anyEvent
    (harness (nodeId 0)) lossSteps
    (fun history (engine : Harness) =>
      generations (history.flatMap Prod.snd) = [1, 2] ∧ engine.selectedRoutes = [] ∧
        engine.unreachableRoutes = [destination])
    rfl (by decide +kernel)
  refine ⟨history, engine, run, counted, ?_⟩
  rw [(replayed_snapshots_show_engine run).1, noRoutes, held]

end Concrete

end Engine

end BabelRs
