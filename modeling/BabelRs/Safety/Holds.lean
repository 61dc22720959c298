import BabelRs.Safety.Phases

/-!
# Withdrawal holds and live routes

Reselection never leaves a hold on a selected route.  It does leave one on a
local origin when the learned route of the same key is lost, so holds stay off
local origins only as long as no originated key is learned.
-/

set_option autoImplicit false

namespace BabelRs

open Lib Lib.Effect

variable (order : HashOrder) (key : RouteKey)

namespace Engine

variable {P M : Type} {ticks : Bool} {now : UInt64} {own : RouteKey → Bool}
variable {s t : Engine P M} {actions : List Action} {event : Event P}

/-! ## Selected routes -/

def HoldsUnselected (s : Engine P M) : Prop :=
  ∀ key, s.tombstones.containsKey key = true → s.selected.get? key = none

theorem HoldsUnselected.shrink (holds : HoldsUnselected s) (selected : t.selected = s.selected)
    (fewer : ∀ key, t.tombstones.containsKey key = true → s.tombstones.containsKey key = true) :
    HoldsUnselected t := by
  intro key held
  rw [selected]
  exact holds key (fewer key held)

theorem Reconfigures.holdsUnselected (reconfigures : Reconfigures s t) (holds : HoldsUnselected s) :
    HoldsUnselected t :=
  holds.shrink reconfigures.selected fun _ held => reconfigures.tombstones ▸ held

theorem reselect_holdsUnselected (s : Engine P M) :
    HoldsUnselected (reselect order now s).1 := by
  intro key held
  rw [reselect_tombstones, OrdMap.containsKey, get?_reselectState_tombstones] at held
  rw [reselect_selected]
  split at held
  next => cases held
  next unselected => exact OrdMap.containsKey_eq_false.mp (by simpa using unselected)

theorem Edit.holdsUnselected {before : Engine P M} (edit : Edit before event s actions t)
    (holds : HoldsUnselected s) : HoldsUnselected t := by
  cases edit with
  | scheduled _ => exact holds.shrink rfl fun _ held => held
  | lifted key => exact holds.shrink rfl fun other held => OrdMap.containsKey_of_retain held
  | bumped => exact holds
  | reoriginated origins _ => exact holds

theorem Coda.holdsUnselected (coda : Coda now s actions t) (holds : HoldsUnselected s) :
    HoldsUnselected t := by
  cases coda with
  | announced announces =>
    exact holds.shrink announces.quiet.selected fun key held => announces.quiet.tombstones ▸ held
  | reported => exact holds
  | held key unselected _ =>
    intro other held
    rw [OrdMap.containsKey, holdWithdrawal, OrdMap.get?_insert] at held
    by_cases here : key = other
    · exact here ▸ unselected
    · rw [if_neg here] at held
      exact holds other held
  | lifted key _ => exact holds.shrink rfl fun other held => OrdMap.containsKey_of_retain held

theorem Reselects.holdsUnselected (reselects : Reselects now s actions t)
    (holds : HoldsUnselected s) : HoldsUnselected t := by
  cases reselects with
  | skipped => exact holds
  | taken order => exact reselect_holdsUnselected order s

section Events
variable [NeighborMetric M] [MetricProfile P M]

theorem Prelude.holdsUnselected (prelude : Prelude now s actions t) (holds : HoldsUnselected s) :
    HoldsUnselected t := by
  cases prelude with
  | sensed silent => exact silent.senses.toReconfigures.holdsUnselected holds
  | collected => exact holds.shrink rfl fun key held => OrdMap.containsKey_of_retain held
  | invalidated => exact holds

theorem moves_holdsUnselected (event : Event P) :
    Moves event fun (s : Engine P M) _ t => HoldsUnselected s → HoldsUnselected t where
  prelude := Prelude.holdsUnselected
  reselects := Reselects.holdsUnselected
  output := fun move => move.coda.holdsUnselected
  observation := fun _ move => move.senses.2.toReconfigures.holdsUnselected
  tlv := fun _ _ order state holds =>
    holds.shrink (receiveTlv_receives order _ _ state).selected fun _ held =>
      (receiveTlv_receives order _ _ state).tombstones ▸ held

theorem Dispatched.holdsUnselected (dispatched : Dispatched event s actions t)
    (holds : HoldsUnselected s) :
    HoldsUnselected t := by
  obtain ⟨start, change, kept⟩ := dispatched.fold (keeps_chains HoldsUnselected)
    (moves_holdsUnselected event) fun _ _ _ _ => Edit.holdsUnselected
  exact kept (change.reconfigures.holdsUnselected holds)

end Events

/-! ## Local origins -/

/-- No key that is originated, and `own` tells which are, is held. -/
structure HoldsOff (own : RouteKey → Bool) (s : Engine P M) : Prop where
  owned : ∀ key, s.originated.containsKey key = own key
  unheld : ∀ key, own key = true → s.tombstones.get? key = none

/-- The same, and no originated key is learned either. -/
structure Unlearned (own : RouteKey → Bool) (s : Engine P M) : Prop extends HoldsOff own s where
  unselected : ∀ key, own key = true → s.selected.get? key = none

theorem HoldsOff.keep (off : HoldsOff own s)
    (owned : ∀ key, t.originated.containsKey key = s.originated.containsKey key)
    (fewer : ∀ key, s.tombstones.get? key = none → t.tombstones.get? key = none) :
    HoldsOff own t :=
  ⟨fun key => (owned key).trans (off.owned key), fun key mine => fewer key (off.unheld key mine)⟩

theorem Unlearned.keep (unlearned : Unlearned own s) (selected : t.selected = s.selected)
    (owned : ∀ key, t.originated.containsKey key = s.originated.containsKey key)
    (fewer : ∀ key, s.tombstones.get? key = none → t.tombstones.get? key = none) :
    Unlearned own t :=
  ⟨unlearned.toHoldsOff.keep owned fewer, fun key mine => selected ▸ unlearned.unselected key mine⟩

theorem Reconfigures.unlearned (frame : Reconfigures s t) (unlearned : Unlearned own s) :
    Unlearned own t :=
  unlearned.keep frame.selected (fun key => by rw [frame.originated]) fun key absent =>
    frame.tombstones ▸ absent

theorem Prelude.unlearned [NeighborMetric M] [MetricProfile P M] (prelude : Prelude now s actions t)
    (unlearned : Unlearned own s) :
    Unlearned own t := by
  cases prelude with
  | sensed silent => exact silent.senses.toReconfigures.unlearned unlearned
  | collected =>
    exact unlearned.keep rfl (fun _ => rfl) fun key absent => OrdMap.get?_retain_of_none absent
  | invalidated => exact unlearned

/-- Reselection holds only keys that were selected. -/
theorem reselect_holdsOff (unlearned : Unlearned own s) :
    HoldsOff own (reselect order now s).1 := by
  refine ⟨fun key => ?_, fun key mine => ?_⟩
  · rw [(reselect_tables order now s).originated]
    exact unlearned.owned key
  · rw [reselect_tombstones, get?_reselectState_tombstones]
    have unselected : s.selected.containsKey key = false :=
      OrdMap.containsKey_eq_false.mpr (unlearned.unselected key mine)
    split
    next => rfl
    next => simp [unselected, unlearned.unheld key mine]

theorem Reselects.holdsOff (reselects : Reselects now s actions t) (unlearned : Unlearned own s) :
    HoldsOff own t := by
  cases reselects with
  | skipped => exact unlearned.toHoldsOff
  | taken order => exact reselect_holdsOff order unlearned

theorem Coda.holdsOff (coda : Coda now s actions t) (off : HoldsOff own s) : HoldsOff own t := by
  cases coda with
  | announced announces =>
    exact off.keep (fun key => by rw [announces.quiet.originated]) fun key absent =>
      announces.quiet.tombstones ▸ absent
  | reported => exact ⟨off.owned, off.unheld⟩
  | held key _ withdrawn =>
    refine ⟨off.owned, fun other mine => ?_⟩
    have apart : key ≠ other := by
      rintro rfl
      rw [← off.owned, OrdMap.containsKey, withdrawn] at mine
      cases mine
    rw [holdWithdrawal, OrdMap.get?_insert, if_neg apart]
    exact off.unheld other mine
  | lifted key _ => exact off.keep (fun _ => rfl) fun other absent => OrdMap.get?_retain_of_none absent

theorem outputs_holdsOff (outputs : Steps (Output ticks now) s actions t)
    (off : HoldsOff own s) : HoldsOff own t :=
  outputs.fold (keeps_chains (HoldsOff own)) (fun move => move.coda.holdsOff) off

theorem Phase.holdsOff [NeighborMetric M] [MetricProfile P M]
    (phase : Phase (Prelude now) ticks now s actions t) (unlearned : Unlearned own s) :
    HoldsOff own t := by
  obtain ⟨prelude, reselects, coda⟩ := phase
  exact outputs_holdsOff (conclusions_outputs coda) (reselects.holdsOff
    (prelude.fold (keeps_chains (Unlearned own)) Prelude.unlearned unlearned))

/-! ### Several phases -/

/-- Nothing is learned for an originated key, not even a candidate. -/
structure Unheard (own : RouteKey → Bool) (s : Engine P M) : Prop extends Unlearned own s where
  candidates : ∀ entry candidate, s.candidates.get? entry = some candidate →
    own candidate.key = false

theorem Unheard.fade (unheard : Unheard own s) (unlearned : Unlearned own t) (fades : Fades s t) :
    Unheard own t := by
  refine ⟨unlearned, fun entry candidate found => ?_⟩
  obtain ⟨old, stored, faded⟩ := fades entry candidate found
  rw [faded.key]
  exact unheard.candidates entry old stored

theorem Reselects.unheard (reselects : Reselects now s actions t) (unheard : Unheard own s) :
    Unheard own t := by
  have off := reselects.holdsOff unheard.toUnlearned
  cases reselects with
  | skipped => exact unheard
  | taken order =>
    refine ⟨⟨off, fun key mine => ?_⟩, ?_⟩
    · rw [Option.eq_none_iff_forall_ne_some]
      intro route found
      rw [reselect_selected] at found
      obtain ⟨candidate, stored, _, named, _⟩ := reselectState_chosen order now s found
      obtain ⟨entry, located⟩ := AssocMap.mem_values_iff.mp stored
      have foreign := unheard.candidates entry candidate located
      rw [named, mine] at foreign
      cases foreign
    · rw [(reselect_tables order now s).candidates]
      exact unheard.candidates

theorem Phase.unheard [NeighborMetric M] [MetricProfile P M]
    (phase : Phase (Prelude now) ticks now s actions t) (unheard : Unheard own s) :
    Unheard own t := by
  obtain ⟨prelude, reselects, coda⟩ := phase
  have prepared := prelude.fold (keeps_chains (Unheard own))
    (fun prelude before => before.fade (prelude.unlearned before.toUnlearned) prelude.fades) unheard
  refine (conclusions_outputs coda).fold (keeps_chains (Unheard own)) (fun move before => ?_)
    (reselects.unheard prepared)
  refine ⟨⟨move.coda.holdsOff before.toHoldsOff, fun key mine => ?_⟩, ?_⟩
  · rw [move.coda.sameRoutes.selected]
    exact before.unselected key mine
  · rw [move.coda.sameRoutes.candidates]
    exact before.candidates

/-! ### Events that edit origins -/

def HoldsUnowned (s : Engine P M) : Prop :=
  ∀ key, s.originated.containsKey key = true → s.tombstones.get? key = none

theorem HoldsOff.unowned (off : HoldsOff own s) : HoldsUnowned s :=
  fun key mine => off.unheld key (off.owned key ▸ mine)

theorem HoldsUnowned.off (unowned : HoldsUnowned s) :
    HoldsOff s.originated.containsKey s :=
  ⟨fun _ => rfl, unowned⟩

theorem installOrigin_selected (metric : UInt16) (s : Engine P M) :
    (installOrigin key metric now s).1.selected = s.selected := by
  simp only [installOrigin, liftHold, when, andThen_apply, update_apply]
  split <;> split <;> rfl

theorem installOrigin_unheld (metric : UInt16) (s : Engine P M) {other : RouteKey}
    (absent : other = key ∨ s.tombstones.get? other = none) :
    (installOrigin key metric now s).1.tombstones.get? other = none := by
  have lifted : (installOrigin key metric now s).1.tombstones = (liftHold key s).1.tombstones := by
    simp only [installOrigin, when, andThen_apply, update_apply]
    split <;> rfl
  rw [lifted]
  unfold liftHold when
  split
  next =>
    show (s.tombstones.remove key).get? other = none
    rw [OrdMap.get?_remove]
    rcases absent with here | absent
    · rw [if_pos here]
    · rw [absent, ite_self]
  next unheld =>
    rcases absent with here | absent
    · rw [here]
      exact OrdMap.containsKey_eq_false.mp (by simpa using unheld)
    · exact absent

theorem originate_unowned (metric : UInt16) (s : Engine P M) (unowned : HoldsUnowned s)
    (unselected : ∀ other, s.originsAfter (.originate key metric now) other = true →
      s.selected.get? other = none) :
    HoldsUnowned (originate order key metric now s).1 := by
  unfold originate
  split
  · exact unowned
  · have installed : Unlearned (s.originsAfter (.originate key metric now))
        (installOrigin key metric now s).1 := by
      refine ⟨⟨installOrigin_owned key metric s, fun other mine => ?_⟩, fun other mine => ?_⟩
      · apply installOrigin_unheld
        simp only [originsAfter, Bool.or_eq_true, decide_eq_true_eq] at mine
        exact mine.imp id (unowned other)
      · rw [installOrigin_selected]
        exact unselected other mine
    exact (outputs_holdsOff (utterances_outputs (setOrigin_utters order key metric s))
      (reselect_holdsOff order installed)).unowned

theorem removeOrigin_unowned (existed : Bool) (s : Engine P M) (unowned : HoldsUnowned s)
    (unselected : ∀ other, s.originsAfter (.withdraw key now) other = true →
      s.selected.get? other = none) :
    HoldsUnowned (removeOrigin order key existed now s).1 := by
  have removed : Unlearned (s.originsAfter (.withdraw key now))
      { s with originated := s.originated.remove key } := by
    refine ⟨⟨removeOrigin_owned key s, fun other mine => ?_⟩, unselected⟩
    simp only [originsAfter, Bool.and_eq_true] at mine
    exact unowned other mine.2
  obtain ⟨after, _, coda⟩ := removeOrigin_coda order key existed now s
  exact (outputs_holdsOff (conclusions_outputs coda) (reselect_holdsOff order removed)).unowned

/-- Announcing a new origin set lifts every hold on it. -/
theorem announceOrigins_unowned (s : Engine P M) : HoldsUnowned (s.announceOrigins now) := by
  have looped : ∀ (keys : List RouteKey) (u : Engine P M),
      (keys.foldl (fun engine key => repeatAdvertisement key now
          { engine with tombstones := engine.tombstones.remove key }) u).originated = u.originated ∧
        ∀ key, key ∈ keys ∨ u.tombstones.get? key = none →
          (keys.foldl (fun engine key => repeatAdvertisement key now
            { engine with tombstones := engine.tombstones.remove key }) u).tombstones.get? key =
              none := by
    intro keys
    induction keys with
    | nil => exact fun u => ⟨rfl, fun key absent => absent.resolve_left (by simp)⟩
    | cons first rest ih =>
      intro u
      obtain ⟨kept, lifted⟩ := ih (repeatAdvertisement first now
        { u with tombstones := u.tombstones.remove first })
      refine ⟨kept, fun key absent => lifted key ?_⟩
      by_cases here : key = first
      · exact Or.inr (by simp [repeatAdvertisement, OrdMap.get?_remove, here])
      · rcases absent with listed | absent
        · exact Or.inl ((List.mem_cons.mp listed).resolve_left here)
        · exact Or.inr (by simpa [repeatAdvertisement, OrdMap.get?_remove, here] using absent)
  intro key mine
  obtain ⟨kept, lifted⟩ := looped s.originated.keys s
  refine lifted key (Or.inl (OrdMap.mem_keys_iff.mpr ?_))
  rw [announceOrigins, kept] at mine
  exact mine

theorem replaceOrigins_unowned (origins : OrdMap RouteKey UInt16) (s : Engine P M)
    (unowned : HoldsUnowned s) :
    HoldsUnowned (replaceOrigins order origins now s).1 := by
  unfold replaceOrigins
  split
  · exact unowned
  · have concluded : ∀ u : Engine P M, HoldsUnowned
        (andThen (Effect.update (announceOrigins now))
          (andThen routeSnapshot (sendUpdates now none none none)) u).1 := by
      intro u
      have reported : HoldsUnowned (routeSnapshot (u.announceOrigins now)).1 :=
        announceOrigins_unowned u
      have sent : Steps (Output false now) (routeSnapshot (u.announceOrigins now)).1 _ _ :=
        utterances_outputs (sendUpdates_utters none none none _)
      exact (outputs_holdsOff sent reported.off).unowned
    exact concluded _

/-! ## Every event -/

/-- No key that is originated once the event is handled is a learned route, and
interface policies change only while none is even a candidate. -/
def originsUnlearned (s : Engine P M) (event : Event P) : Bool :=
  (match event with
    | .replaceOrigins _ _ => true
    | _ => s.selected.keys.all fun key => !s.originsAfter event key) &&
  (!event.changesPolicy ||
    s.candidates.values.all fun candidate => !s.originated.containsKey candidate.key)

section Events
variable [NeighborMetric M] [MetricProfile P M]

theorem PacketPhase.holdsOff {neighbour : NeighborKey} {tlvs : List Tlv}
    (phase : PacketPhase neighbour now tlvs s actions t) (unlearned : Unlearned own s) :
    HoldsOff own t := by
  cases phase with
  | dropped _ => exact ⟨unlearned.owned, unlearned.unheld⟩
  | processed observes greets _ processes reselects announces =>
    have received := processes.receives
    have heard := (observations_senses observes).toReconfigures.unlearned unlearned
    have quiet := (utterances_announces greets : Announces nothingLost now _ _ _).quiet
    have greeted := heard.keep quiet.selected (fun key => by rw [quiet.originated]) fun key absent =>
      quiet.tombstones ▸ absent
    have processed := greeted.keep received.selected received.owned fun key absent =>
      received.tombstones ▸ absent
    exact outputs_holdsOff (utterances_outputs announces) (reselects.holdsOff processed)

/-- Events that leave the origins alone hold none of them, unless one is learned. -/
theorem Dispatched.unowned (dispatched : Dispatched event s actions t)
    (plain : event.editsOrigins = false) (unowned : HoldsUnowned s)
    (unselected : ∀ key, s.originated.containsKey key = true → s.selected.get? key = none)
    (candidates : event.changesPolicy = true → ∀ entry candidate,
      s.candidates.get? entry = some candidate →
        s.originated.containsKey candidate.key = false) : HoldsUnowned t := by
  have unlearned : Unlearned s.originated.containsKey s := ⟨unowned.off, unselected⟩
  cases dispatched with
  | packet neighbour tlvs _ phase => exact (phase.holdsOff unlearned).unowned
  | edited edits _ =>
    rw [plain] at edits
    cases edits
  | phase start _ change phase =>
    exact (phase.holdsOff (change.reconfigures.unlearned unlearned)).unowned
  | phases start policy change phases =>
    have unheard : Unheard s.originated.containsKey start :=
      Unheard.fade ⟨unlearned, candidates policy⟩ (change.reconfigures.unlearned unlearned)
        change.reconfigures.fades
    exact (phases.fold (keeps_chains (Unheard s.originated.containsKey)) Phase.unheard
      unheard).toHoldsOff.unowned

theorem handleValidated_unowned (event : Event P) (s : Engine P M)
    (allowed : originsUnlearned s event = true) (unowned : HoldsUnowned s) :
    HoldsUnowned (handleValidated order event s).1 := by
  obtain ⟨unlearned, policy⟩ := Bool.and_eq_true_iff.mp allowed
  have unselected : (∀ origins now, event ≠ .replaceOrigins origins now) →
      ∀ key, s.originsAfter event key = true → s.selected.get? key = none := by
    intro edits key mine
    have listed : (s.selected.keys.all fun key => !s.originsAfter event key) = true := by
      cases event with
      | replaceOrigins origins now => exact absurd rfl (edits origins now)
      | _ => exact unlearned
    by_contra selected
    have found : key ∈ s.selected.keys := by
      rw [OrdMap.mem_keys_iff, OrdMap.containsKey, Option.isSome_iff_ne_none]
      exact selected
    have foreign := List.all_eq_true.mp listed key found
    rw [mine] at foreign
    cases foreign
  have candidates : event.changesPolicy = true → ∀ entry candidate,
      s.candidates.get? entry = some candidate →
        s.originated.containsKey candidate.key = false := by
    intro changes entry candidate found
    rw [changes, Bool.not_true, Bool.false_or] at policy
    have foreign := List.all_eq_true.mp policy candidate
      (AssocMap.mem_values_iff.mpr ⟨entry, found⟩)
    simpa using foreign
  have dispatched := handleValidated_dispatched order event s
  cases event with
  | originate key metric now =>
    exact originate_unowned order key metric s unowned (unselected (by simp))
  | withdraw key now =>
    exact removeOrigin_unowned order key _ s unowned (unselected (by simp))
  | replaceOrigins origins now => exact replaceOrigins_unowned order origins s unowned
  | _ => exact dispatched.unowned rfl unowned (unselected (by simp)) candidates

/-- In a run that never learns an originated key, the held keys are neither
selected nor originated. -/
theorem holds_cover_no_live_route {history : List (Event P × List Action)} {engine : Engine P M}
    (run : RunOf originsUnlearned history engine) (key : RouteKey)
    (held : engine.tombstones.containsKey key = true) :
    engine.selected.containsKey key = false ∧ engine.originated.containsKey key = false := by
  have apart : HoldsUnselected engine ∧ HoldsUnowned engine := by
    refine run.invariant (fun _ engine => HoldsUnselected engine ∧ HoldsUnowned engine) ?_ ?_
    · intro s starts
      obtain ⟨config, _, rfl⟩ := starts.eq_initial
      exact ⟨fun _ _ => rfl, fun _ _ => rfl⟩
    · rintro history s event actions t ⟨unselected, unowned⟩ ⟨allowed, order, handled⟩
      obtain ⟨_, _, rfl⟩ := tryHandle_ok handled
      exact ⟨(handleValidated_dispatched order event s).holdsUnselected unselected,
        handleValidated_unowned order event s allowed unowned⟩
  refine ⟨OrdMap.containsKey_eq_false.mpr (apart.1 key held), ?_⟩
  by_contra mine
  have absent := apart.2 key (by simpa using mine)
  rw [OrdMap.containsKey, absent] at held
  cases held

end Events

section Concrete
open Conformance

/-- `2001:db8:1::/64`, another destination. -/
def otherDestination : RouteKey := ⟨.v6 0x20010db8000100000000000000000000 64, none⟩

/-- A node with an origin of its own loses the route to another key. -/
theorem holds_apart_from_own_origin :
    ∃ (history : List (Event BuiltinProfile × List Action)) (engine : Harness),
      RunOf originsUnlearned history engine ∧
        engine.originated.containsKey otherDestination = true ∧
        engine.tombstones.containsKey destination = true ∧
        engine.selected.containsKey destination = false ∧
        engine.originated.containsKey destination = false := by
  obtain ⟨history, engine, run, own, held⟩ := run_of_checked_play originsUnlearned
    (harness (nodeId 0))
    [.interfaceUp (link 1) [] 0,
      .originate otherDestination 0 0,
      packet (link 1) (address 2) (greeting 96) 1,
      packet (link 1) (address 2) [routeUpdate destination (address 2) (nodeId 1) 100 0] 2,
      packet (link 1) (address 2) [routeUpdate destination (address 2) (nodeId 1) 100 INFINITY] 3]
    (fun _ (engine : Harness) =>
      engine.originated.containsKey otherDestination = true ∧
      engine.tombstones.containsKey destination = true)
    rfl (by decide +kernel)
  exact ⟨history, engine, run, own, held, holds_cover_no_live_route run destination held⟩

/-- The node originates the key itself, learns it from a neighbour too, and the
neighbour retracts it: reselection holds a key that is still originated. -/
theorem lost_learned_route_holds_own_origin :
    ∃ (history : List (Event BuiltinProfile × List Action)) (engine : Harness),
      RunOf anyEvent history engine ∧ engine.tombstones.containsKey destination = true ∧
        engine.originated.containsKey destination = true := by
  exact run_of_checked_play anyEvent (harness (nodeId 0))
    [.interfaceUp (link 1) [] 0,
      .originate destination 0 0,
      packet (link 1) (address 2) (greeting 96) 1,
      packet (link 1) (address 2) [routeUpdate destination (address 2) (nodeId 1) 100 0] 2,
      packet (link 1) (address 2) [routeUpdate destination (address 2) (nodeId 1) 100 INFINITY] 3]
    _ rfl (by decide +kernel)

end Concrete

end Engine

end BabelRs
