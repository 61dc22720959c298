import BabelRs.Safety.Holds

/-!
# Lost routes are retracted and held

A key that leaves both the selected routes and the local origins is held, and on
every interface its last Updates are retractions.
-/

set_option autoImplicit false

namespace BabelRs

open Lib Lib.Effect

/-! ## Retractions in a list of sent Updates -/

/-- A retraction of the key to an interface's multicast group. -/
def SentUpdate.Retracts (sent : SentUpdate) (key : RouteKey) (interface : InterfaceName)
    (group : IpAddr) : Prop :=
  sent.interface = interface ∧ sent.destination = group ∧ sent.update.key = some key ∧
    sent.update.metric = INFINITY

def SilentOn (key : RouteKey) (interface : InterfaceName) (sent : List SentUpdate) : Prop :=
  ∀ item ∈ sent, item.interface = interface → item.update.key = some key →
    item.update.metric = INFINITY

/-- The key is retracted to the group, and no finite Update of it follows on the
interface. -/
def EndsRetracted (key : RouteKey) (interface : InterfaceName) (group : IpAddr)
    (sent : List SentUpdate) : Prop :=
  ∃ earlier retraction later, sent = earlier ++ retraction :: later ∧
    retraction.Retracts key interface group ∧ SilentOn key interface later

section Lists
variable {key : RouteKey} {interface : InterfaceName} {group : IpAddr}

theorem SilentOn.append {first second : List SentUpdate} (left : SilentOn key interface first)
    (right : SilentOn key interface second) : SilentOn key interface (first ++ second) := by
  intro item member
  rcases List.mem_append.mp member with early | late
  · exact left item early
  · exact right item late

theorem EndsRetracted.after {second : List SentUpdate} (ends : EndsRetracted key interface group second)
    (first : List SentUpdate) : EndsRetracted key interface group (first ++ second) := by
  obtain ⟨earlier, retraction, later, split, retracts, silent⟩ := ends
  exact ⟨first ++ earlier, retraction, later, by rw [split, List.append_assoc], retracts, silent⟩

theorem EndsRetracted.append {first second : List SentUpdate}
    (ends : EndsRetracted key interface group first) (silent : SilentOn key interface second) :
    EndsRetracted key interface group (first ++ second) := by
  obtain ⟨earlier, retraction, later, split, retracts, quiet⟩ := ends
  refine ⟨earlier, retraction, later ++ second, ?_, retracts, quiet.append silent⟩
  rw [split, List.append_assoc, List.cons_append]

theorem SilentOn.ends {sent : List SentUpdate} (silent : SilentOn key interface sent)
    {retraction : SentUpdate} (member : retraction ∈ sent)
    (retracts : retraction.Retracts key interface group) :
    EndsRetracted key interface group sent := by
  obtain ⟨earlier, later, split⟩ := List.append_of_mem member
  refine ⟨earlier, retraction, later, split, retracts, fun item inside => silent item ?_⟩
  rw [split]
  exact List.mem_append_right _ (List.mem_cons_of_mem _ inside)

end Lists

variable (order : HashOrder)

namespace Engine

variable {P M : Type} {ticks : Bool} {now : UInt64} {key : RouteKey}
variable {s t : Engine P M} {actions : List Action} {event : Event P}

/-! ## Where retractions come from -/

def UpOn (s : Engine P M) (interface : InterfaceName) (group : IpAddr) : Prop :=
  ∃ state, s.interfaces.get? interface = some state ∧
    group = state.policy.controlTransport.multicast

theorem UpOn.of_links (links : t.links = s.links) {interface : InterfaceName} {group : IpAddr}
    (up : UpOn t interface group) : UpOn s interface group := by
  obtain ⟨state, found, rfl⟩ := up
  have linked := get?_links t interface
  rw [found, links, get?_links] at linked
  obtain ⟨other, located, same⟩ := Option.map_eq_some_iff.mp linked
  exact ⟨other, located, by rw [(Prod.mk.inj same).2]⟩

def RetractsAll (s : Engine P M) (key : RouteKey) (sent : List SentUpdate) : Prop :=
  ∀ interface group, UpOn s interface group →
    ∃ retraction ∈ sent, retraction.Retracts key interface group

theorem sendRetraction_retracts (s : Engine P M) (key : RouteKey) (seqno : UInt16) (now : UInt64) :
    RetractsAll s key (sentUpdates (s.sendRetraction key seqno now)) := by
  rintro interface group ⟨state, found, rfl⟩
  let update : OutboundUpdate :=
    { key := some key
      routerId := some s.config.routerId
      nextHop := none
      intervalCs := state.policy.updateIntervalCs
      seqno := seqno
      metric := INFINITY
      v4ViaV6 := false
      subTlvs := [] }
  have sent : Action.send interface state.policy.controlTransport.multicast ⟨[.update update]⟩
      (SendTiming.urgent now) ∈ s.sendRetraction key seqno now :=
    List.mem_map.mpr ⟨(interface, state), OrdMap.get?_eq_some_iff.mp found, rfl⟩
  exact ⟨⟨interface, state.policy.controlTransport.multicast, SendTiming.urgent now, update⟩,
    mem_sentUpdates.mpr ⟨_, sent, by simp [Action.sent]⟩, rfl, rfl, rfl, rfl⟩

/-- The delta of a reselection retracts every lost key. -/
theorem selectedDelta_retracts (before : OrdMap RouteKey SelectedRoute) (s : Engine P M)
    (was : before.containsKey key = true) (lost : s.selected.get? key = none) :
    RetractsAll s key (sentUpdates (selectedDelta order before now s).2) := by
  intro interface group up
  obtain ⟨route, found⟩ := OrdMap.containsKey_iff.mp was
  have each : ∀ entry ∈ before.entries, Meets
      (Announces (P := P) (M := M) (fun key => before.containsKey key = true) now)
      (announceLoss (s.requestTargets order before) now entry) := fun entry member =>
    announceLoss_announces _ entry
      (OrdMap.containsKey_iff.mpr ⟨entry.2, OrdMap.get?_eq_some_iff.mpr member⟩)
  obtain ⟨early, middle, late, reached, actions, _⟩ := forEach_reaches
    (announces_chains (fun key => before.containsKey key = true) now) each
    (OrdMap.get?_eq_some_iff.mp found) s
  have unselected : middle.selected.containsKey key = false := by
    rw [reached.quiet.selected]
    exact OrdMap.containsKey_eq_false.mpr lost
  have retracted : ∃ rest, (announceLoss (s.requestTargets order before) now (key, route) middle).2 =
      (middle.repeatAdvertisement key now).sendRetraction key route.seqno now ++ rest := by
    simp only [announceLoss, unselected, Bool.false_eq_true, if_false]
    split
    · split
      · exact ⟨[], (List.append_nil _).symm⟩
      · exact ⟨_, rfl⟩
    · exact ⟨[], (List.append_nil _).symm⟩
  obtain ⟨rest, split⟩ := retracted
  obtain ⟨retraction, member, retracts⟩ := sendRetraction_retracts
    (middle.repeatAdvertisement key now) key route.seqno now interface group
    (up.of_links reached.quiet.links.symm)
  refine ⟨retraction, ?_, retracts⟩
  simp only [selectedDelta, andThen_apply, actions, split, sentUpdates_append,
    List.mem_append]
  exact Or.inl (Or.inr (Or.inl (Or.inl member)))

theorem reselect_retracts (s : Engine P M) (was : s.selected.containsKey key = true)
    (lost : (reselect order now s).1.selected.get? key = none) :
    RetractsAll (reselect order now s).1 key (sentUpdates (reselect order now s).2) := by
  rw [reselect_selected] at lost
  have changed : (s.reselectState order now).selected ≠ s.selected := by
    intro same
    rw [same, ← OrdMap.containsKey_eq_false, was] at lost
    cases lost
  have actions : (reselect order now s).2 =
      .routesChanged (s.generation + 1) (s.reselectState order now).selectedRoutes
          (s.reselectState order now).unreachableRoutes ::
        (selectedDelta order s.selected now
          { s.reselectState order now with generation := s.generation + 1 }).2 := by
    simp only [reselect, if_pos (Or.inl changed)]
    rfl
  rw [actions, sentUpdates_cons]
  intro interface group up
  exact selectedDelta_retracts order s.selected
    { s.reselectState order now with generation := s.generation + 1 } was lost interface group
    (up.of_links (reselect_tables order now s).links)

/-- A held key that is neither selected nor originated is retracted by
`send_updates` on every interface. -/
theorem sendUpdates_retracts (timing : Option SendTiming) (s : Engine P M)
    (held : s.tombstones.containsKey key = true) (unselected : s.selected.get? key = none)
    (withdrawn : s.originated.get? key = none) :
    RetractsAll s key (sentUpdates (sendUpdates now (some key) none timing s).2) := by
  rintro interface group ⟨state, found, rfl⟩
  have each : ∀ name ∈ s.interfaces.keys, Meets
      (Announces (P := P) (M := M) nothingLost now)
      (sendUpdatesOn now (some key) timing [] [] [key] name) := fun name _ u =>
    sendUpdatesOn_announces [] [] [key] (some key) timing name u u (Quiet.refl u) (by simp) (by simp)
  have named : interface ∈ s.interfaces.keys :=
    OrdMap.mem_keys_iff.mpr (OrdMap.containsKey_iff.mpr ⟨state, found⟩)
  obtain ⟨early, middle, late, reached, actions, _⟩ := forEach_reaches
    (announces_chains nothingLost now) each named s
  obtain ⟨other, located, same⟩ : UpOn middle interface state.policy.controlTransport.multicast :=
    UpOn.of_links reached.quiet.links.symm ⟨state, found, rfl⟩
  have dead : (!middle.originated.containsKey key && !middle.selected.containsKey key) = true := by
    rw [reached.quiet.originated, reached.quiet.selected, OrdMap.containsKey_eq_false.mpr unselected,
      OrdMap.containsKey_eq_false.mpr withdrawn]
    rfl
  have whole : sendUpdates now (some key) none timing s =
      forEach s.interfaces.keys (sendUpdatesOn now (some key) timing [] [] [key]) s := by
    simp [sendUpdates, originsFor, selectedFor, tombstonesFor, held, unselected, withdrawn, wanted]
  refine ⟨⟨interface, other.policy.controlTransport.multicast,
    timing.getD (SendTiming.triggered now other.policy.helloIntervalCs),
    middle.advertisement interface key middle.config.routerId middle.sequenceNumber INFINITY⟩,
    ?_, rfl, same.symm, rfl, advertisement_infinity middle interface key _ _⟩
  rw [whole, actions, sentUpdates_append, sentUpdates_append]
  refine List.mem_append_right _ (List.mem_append_left _ ?_)
  simp [sendUpdatesOn, located, updateTlvs, advertiseTombstone, dead, andThen_apply,
    Action.sent]

/-! ## Losing a key -/

def Gone (s : Engine P M) (key : RouteKey) : Prop :=
  s.selected.get? key = none ∧ s.originated.get? key = none

def HeldFrom (now : UInt64) (s : Engine P M) (key : RouteKey) : Prop :=
  ∃ deadline, s.tombstones.get? key = some deadline ∧ now ≤ deadline

/-- A key that a move leaves gone stays held if it was live or held, and what was
sent for it ends with a retraction, or is none but retractions if it was gone
before.  Such moves compose whatever happens to the key between them. -/
structure Loses (key : RouteKey) (now : UInt64) (s : Engine P M) (actions : List Action)
    (t : Engine P M) : Prop where
  links : t.links = s.links
  held : Gone t key → ¬ Gone s key ∨ HeldFrom now s key → HeldFrom now t key
  ends : Gone t key → ¬ Gone s key → ∀ interface group, UpOn t interface group →
    EndsRetracted key interface group (sentUpdates actions)
  silent : Gone t key → ∀ interface group, UpOn t interface group →
    EndsRetracted key interface group (sentUpdates actions) ∨
      SilentOn key interface (sentUpdates actions)

theorem loses_chains (key : RouteKey) (now : UInt64) :
    Chains (Loses (P := P) (M := M) key now) where
  refl := fun s =>
    ⟨rfl, fun gone kept => kept.resolve_left (not_not.mpr gone), fun gone live => absurd gone live,
      fun _ _ _ _ => Or.inr (by simp [SilentOn])⟩
  trans := by
    intro s middle t first second left right
    -- Whether the key is gone in between decides which half retracts it.
    have joined : Gone t key → ∀ interface group, UpOn t interface group →
        (EndsRetracted key interface group (sentUpdates first) ∨ ¬ Gone middle key) →
        EndsRetracted key interface group (sentUpdates first ++ sentUpdates second) := by
      intro gone interface group up early
      rcases right.silent gone interface group up with ends | silent
      · exact ends.after _
      · rcases early with ends | live
        · exact ends.append silent
        · exact (right.ends gone live interface group up).after _
    refine ⟨right.links.trans left.links, ?_, ?_, ?_⟩
    · intro gone kept
      by_cases between : Gone middle key
      · exact right.held gone (Or.inr (left.held between kept))
      · exact right.held gone (Or.inl between)
    · intro gone live interface group up
      rw [sentUpdates_append]
      refine joined gone interface group up ?_
      by_cases between : Gone middle key
      · exact Or.inl (left.ends between live interface group (up.of_links right.links))
      · exact Or.inr between
    · intro gone interface group up
      rw [sentUpdates_append]
      by_cases between : Gone middle key
      · rcases left.silent between interface group (up.of_links right.links) with ends | quiet
        · exact Or.inl (joined gone interface group up (Or.inl ends))
        · rcases right.silent gone interface group up with ends | silent
          · exact Or.inl (ends.after _)
          · exact Or.inr (quiet.append silent)
      · exact Or.inl (joined gone interface group up (Or.inr between))

/-- A move that keeps both route tables and says nothing finite about a key that
is gone. -/
theorem Loses.of_kept (links : t.links = s.links) (gone : Gone t key → Gone s key)
    (held : Gone t key → HeldFrom now s key → HeldFrom now t key)
    (silent : Gone t key → ∀ interface, SilentOn key interface (sentUpdates actions)) :
    Loses key now s actions t where
  links := links
  held := fun lost kept => held lost (kept.resolve_left (not_not.mpr (gone lost)))
  ends := fun lost live => absurd (gone lost) live
  silent := fun lost interface _ _ => Or.inr (silent lost interface)

theorem silentOn_of_licensed {cause : RouteKey → Prop} {sent : List SentUpdate}
    (licensed : ∀ item ∈ sent, Licensed cause s item) (gone : Gone s key)
    (interface : InterfaceName) : SilentOn key interface sent := by
  intro item member _ named
  by_contra finite
  rcases (licensed item member).finite_cases finite with
    ⟨other, origin, found, same, _⟩ | ⟨route, found, same, _⟩
  · rw [named] at same
    rw [← Option.some.inj same, gone.2] at found
    cases found
  · rw [named] at same
    rw [← Option.some.inj same, gone.1] at found
    cases found

theorem Gone.congr (selected : t.selected = s.selected) (originated : t.originated = s.originated)
    (gone : Gone t key) : Gone s key :=
  ⟨selected ▸ gone.1, originated ▸ gone.2⟩

theorem HeldFrom.congr (tombstones : t.tombstones = s.tombstones) (held : HeldFrom now s key) :
    HeldFrom now t key := by
  obtain ⟨deadline, found, later⟩ := held
  exact ⟨deadline, tombstones ▸ found, later⟩

theorem Announces.loses (announces : Announces nothingLost now s actions t)
    (keyed : SelectedKeyed s) :
    Loses key now s actions t := by
  have quiet := announces.quiet
  refine .of_kept quiet.links (Gone.congr quiet.selected quiet.originated)
    (fun _ => HeldFrom.congr quiet.tombstones) fun gone interface => ?_
  exact silentOn_of_licensed (announces.licensed keyed) (gone.congr quiet.selected quiet.originated)
    interface

theorem Prelude.loses [NeighborMetric M] [MetricProfile P M] (prelude : Prelude now s actions t) :
    Loses key now s actions t := by
  cases prelude with
  | sensed silent =>
    have senses := silent.senses
    exact .of_kept senses.links (Gone.congr senses.selected senses.originated)
      (fun _ => HeldFrom.congr senses.tombstones) fun _ _ => by simp [SilentOn]
  | collected =>
    refine .of_kept rfl id (fun _ held => ?_) fun _ _ => by simp [SilentOn]
    obtain ⟨deadline, found, later⟩ := held
    refine ⟨deadline, ?_, later⟩
    simp only [collectExpired, OrdMap.get?_retain, found]
    simpa using later
  | invalidated =>
    exact .of_kept rfl id (fun _ held => held) fun _ _ => by simp [SilentOn, Action.sent]

theorem le_lossDeadline (s : Engine P M) : now ≤ s.lossDeadline now key :=
  UInt64.le_trans (le_satAdd now _) (UInt64.le_trans (right_le_max _ _) (left_le_max _ _))

theorem reselect_loses (s : Engine P M) :
    Loses key now s (reselect order now s).2 (reselect order now s).1 := by
  have tables := reselect_tables order now s
  have silent : Gone (reselect order now s).1 key → ∀ interface,
      SilentOn key interface (sentUpdates (reselect order now s).2) := fun gone interface =>
    silentOn_of_licensed (reselect_licensed order now s) gone interface
  have was : Gone (reselect order now s).1 key → ¬ Gone s key →
      s.selected.containsKey key = true := by
    intro gone live
    by_contra absent
    rw [Bool.not_eq_true, OrdMap.containsKey_eq_false] at absent
    exact live ⟨absent, tables.originated ▸ gone.2⟩
  refine ⟨tables.links, ?_, ?_, fun gone interface _ _ => Or.inr (silent gone interface)⟩
  · intro gone kept
    have unselected : (s.reselectState order now).selected.containsKey key = false := by
      rw [OrdMap.containsKey_eq_false, ← reselect_selected]
      exact gone.1
    unfold HeldFrom
    rw [reselect_tombstones, get?_reselectState_tombstones, unselected]
    by_cases before : s.selected.containsKey key = true
    · rw [before]
      exact ⟨_, rfl, le_lossDeadline s⟩
    · obtain ⟨deadline, found, later⟩ :=
        kept.resolve_left fun live => before (was gone live)
      rw [Bool.not_eq_true] at before
      rw [before]
      exact ⟨deadline, found, later⟩
  · intro gone live interface group up
    obtain ⟨retraction, member, retracts⟩ :=
      reselect_retracts order s (was gone live) gone.1 interface group up
    exact (silent gone interface).ends member retracts

theorem Reselects.loses (reselects : Reselects now s actions t) : Loses key now s actions t := by
  cases reselects with
  | skipped => exact (loses_chains key now).refl s
  | taken order => exact reselect_loses order s

theorem holdWithdrawal_held (s : Engine P M) : HeldFrom now (s.holdWithdrawal key now) key :=
  ⟨_, OrdMap.get?_insert_self _ _ _, UInt64.le_trans (le_satAdd now _) (left_le_max _ _)⟩

theorem Coda.loses (coda : Coda now s actions t) (keyed : SelectedKeyed s) :
    Loses key now s actions t := by
  cases coda with
  | announced announces => exact announces.loses keyed
  | reported =>
    exact .of_kept rfl id (fun _ held => held)
      fun _ _ => by simp [routeSnapshot, SilentOn, Action.sent]
  | held other unselected withdrawn =>
    refine .of_kept rfl id (fun _ held => ?_) fun _ _ => by simp [SilentOn]
    by_cases same : other = key
    · subst same
      exact holdWithdrawal_held s
    · obtain ⟨deadline, found, later⟩ := held
      exact ⟨deadline, (OrdMap.get?_insert_of_ne _ _ same).trans found, later⟩
  | lifted other own =>
    refine .of_kept rfl id (fun gone held => ?_) fun _ _ => by simp [SilentOn]
    have apart : key ≠ other := by
      rintro rfl
      rw [OrdMap.containsKey, gone.2] at own
      cases own
    obtain ⟨deadline, found, later⟩ := held
    exact ⟨deadline, by rw [OrdMap.get?_remove, if_neg apart, found], later⟩

/-! ## Whole events -/

/-- The key is held, and retracted for good on every interface. -/
def Retired (key : RouteKey) (now : UInt64) (actions : List Action) (t : Engine P M) : Prop :=
  HeldFrom now t key ∧ ∀ interface group, UpOn t interface group →
    EndsRetracted key interface group (sentUpdates actions)

theorem Loses.retired (loses : Loses key now s actions t) (live : ¬ Gone s key)
    (gone : Gone t key) : Retired key now actions t :=
  ⟨loses.held gone (Or.inl live), loses.ends gone live⟩

theorem Retired.after {second : List Action} (retired : Retired key now second t)
    (first : List Action) : Retired key now (first ++ second) t := by
  refine ⟨retired.1, fun interface group up => ?_⟩
  rw [sentUpdates_append]
  exact (retired.2 interface group up).after _

theorem Retired.then {middle : Engine P M} {first second : List Action}
    (retired : Retired key now first middle) (loses : Loses key now middle second t)
    (gone : Gone t key) : Retired key now (first ++ second) t := by
  refine ⟨loses.held gone (Or.inr retired.1), fun interface group up => ?_⟩
  rw [sentUpdates_append]
  rcases loses.silent gone interface group up with ends | silent
  · exact ends.after _
  · exact (retired.2 interface group (up.of_links loses.links)).append silent

def LosesKeyed (key : RouteKey) (now : UInt64) :
    Engine P M → List Action → Engine P M → Prop :=
  Effect.Guarded SelectedKeyed (Loses key now)

theorem losesKeyed_chains (key : RouteKey) (now : UInt64) :
    Chains (LosesKeyed (P := P) (M := M) key now) :=
  guarded_chains SelectedKeyed (loses_chains key now)

theorem outputs_loses (outputs : Steps (Output ticks now) s actions t)
    (keyed : SelectedKeyed s) :
    Loses key now s actions t :=
  (outputs.fold (losesKeyed_chains key now) (fun move before =>
    ⟨before.of_selected move.coda.sameRoutes.selected, move.coda.loses before⟩) keyed).2

theorem loses_of_reselects {chosen : Engine P M} {delta conclusion : List Action}
    (reselects : Reselects now s delta chosen)
    (coda : Steps (Output ticks now) chosen conclusion t) (keyed : SelectedKeyed s) :
    Loses key now s (delta ++ conclusion) t :=
  (loses_chains key now).trans reselects.loses (outputs_loses coda (reselects.keyed keyed))

theorem Phase.loses [NeighborMetric M] [MetricProfile P M]
    (phase : Phase (Prelude now) ticks now s actions t) :
    LosesKeyed key now s actions t := by
  intro keyed
  obtain ⟨prelude, reselects, concludes⟩ := phase
  have coda := conclusions_outputs concludes
  obtain ⟨prepared, first⟩ := prelude.fold (losesKeyed_chains key now)
    (fun move before => ⟨before.of_selected move.selected, move.loses⟩) keyed
  refine ⟨(reselects.keyed prepared).of_selected (outputs_sameRoutes coda).selected, ?_⟩
  rw [List.append_assoc]
  exact (loses_chains key now).trans first (loses_of_reselects reselects coda prepared)

/-! ### Edited origins -/

/-- The key is selected, or originated before and after the event. -/
def Survives (owned : RouteKey → Bool) (key : RouteKey) (s : Engine P M) : Prop :=
  s.selected.containsKey key = true ∨
    (s.originated.containsKey key = true ∧ owned key = true)

theorem Survives.live {owned : RouteKey → Bool} (survives : Survives owned key s) :
    ¬ Gone s key := by
  rintro ⟨unselected, withdrawn⟩
  rw [← OrdMap.containsKey_eq_false] at unselected withdrawn
  rcases survives with selected | ⟨own, _⟩
  · rw [selected] at unselected
    cases unselected
  · rw [own] at withdrawn
    cases withdrawn

theorem Edit.survives {before : Engine P M} (edit : Edit before event s actions t)
    (survives : Survives (before.originsAfter event) key s) :
    Survives (before.originsAfter event) key t := by
  unfold Survives
  rw [edit.selected]
  rcases survives with selected | ⟨own, later⟩
  · exact Or.inl selected
  · refine Or.inr ⟨?_, later⟩
    cases edit with
    | scheduled _ => exact own
    | lifted _ => exact own
    | bumped => simpa [bumpSequenceNumber, OrdMap.containsKey] using own
    | reoriginated origins same _ => rwa [← same] at later

theorem Phase.retired_of_survives {before : Engine P M}
    (phase : Phase (Edit before event) ticks now s actions t) (keyed : SelectedKeyed s)
    (survives : Survives (before.originsAfter event) key s) (gone : Gone t key) :
    Retired key now actions t := by
  obtain ⟨prelude, reselects, coda⟩ := phase
  have chains := keeps_chains (A := Action)
    fun u : Engine P M => SelectedKeyed u ∧ Survives (before.originsAfter event) key u
  obtain ⟨prepared, kept⟩ := prelude.fold chains
    (fun move kept => ⟨kept.1.of_selected move.selected, move.survives kept.2⟩)
    ⟨keyed, survives⟩
  rw [List.append_assoc]
  exact ((loses_of_reselects reselects (conclusions_outputs coda) prepared).retired
    kept.live gone).after _

/-- Scheduling repeats of a held key and sending it retracts it. -/
theorem repeatThenSend_retired (s : Engine P M) (keyed : SelectedKeyed s) (gone : Gone s key)
    (held : HeldFrom now s key) :
    Retired key now
      (andThen (Effect.update (repeatAdvertisement key now))
        (sendUpdates now (some key) none (some (SendTiming.urgent now))) s).2
      (andThen (Effect.update (repeatAdvertisement key now))
        (sendUpdates now (some key) none (some (SendTiming.urgent now))) s).1 := by
  have announces : Announces nothingLost now (s.repeatAdvertisement key now) _ _ :=
    sendUpdates_announces (some key) none (some (SendTiming.urgent now)) _
  have quiet := (quiet_repeatAdvertisement key s).trans announces.quiet
  refine ⟨held.congr quiet.tombstones, fun interface group up => ?_⟩
  obtain ⟨deadline, found, _⟩ := held
  have silent := silentOn_of_licensed
    (announces.licensed (keyed.of_frame (quiet_repeatAdvertisement key s).toFrame)) gone interface
  obtain ⟨retraction, member, retracts⟩ := sendUpdates_retracts (some (SendTiming.urgent now))
    (s.repeatAdvertisement key now) (OrdMap.containsKey_iff.mpr ⟨deadline, found⟩) gone.1 gone.2
    interface group (up.of_links announces.quiet.links)
  exact silent.ends member retracts

theorem holdRemoved_retired (s : Engine P M) (keyed : SelectedKeyed s) (gone : Gone s key) :
    Retired key now
      (andThen
        (when (fun engine => true && !engine.selected.containsKey key)
          (andThen (Effect.update (holdWithdrawal key now)) routeSnapshot))
        (when (fun _ => true)
          (andThen (Effect.update (repeatAdvertisement key now))
            (sendUpdates now (some key) none (some (SendTiming.urgent now))))) s).2
      (andThen
        (when (fun engine => true && !engine.selected.containsKey key)
          (andThen (Effect.update (holdWithdrawal key now)) routeSnapshot))
        (when (fun _ => true)
          (andThen (Effect.update (repeatAdvertisement key now))
            (sendUpdates now (some key) none (some (SendTiming.urgent now))))) s).1 := by
  have holds : when (fun engine => true && !engine.selected.containsKey key)
      (andThen (Effect.update (holdWithdrawal key now)) routeSnapshot) s =
        routeSnapshot (s.holdWithdrawal key now) := by
    simp [when, andThen_apply, OrdMap.containsKey_eq_false.mpr gone.1]
  rw [andThen_apply, holds]
  have reported : HeldFrom now (routeSnapshot (s.holdWithdrawal key now)).1 key :=
    (holdWithdrawal_held s).congr rfl
  have kept : SelectedKeyed (routeSnapshot (s.holdWithdrawal key now)).1 := keyed.of_selected rfl
  exact (repeatThenSend_retired _ kept gone reported).after _

theorem removeOrigin_retired (s : Engine P M)
    (gone : Gone (removeOrigin order key true now s).1 key) :
    Retired key now (removeOrigin order key true now s).2 (removeOrigin order key true now s).1 := by
  obtain ⟨after, _, coda⟩ := removeOrigin_coda order key true now s
  have same := outputs_sameRoutes (conclusions_outputs coda)
  have lost : Gone (reselect order now { s with originated := s.originated.remove key }).1 key :=
    gone.congr same.selected same.originated
  exact (holdRemoved_retired _ (reselect_keyed order now _) lost).after _

theorem withdrawRemoved_retired (s : Engine P M) (keyed : SelectedKeyed s) (gone : Gone s key) :
    Retired key now (withdrawRemoved now key s).2 (withdrawRemoved now key s).1 := by
  have holds : withdrawRemoved now key s =
      andThen (Effect.update (repeatAdvertisement key now))
        (sendUpdates now (some key) none (some (SendTiming.urgent now)))
        (s.holdWithdrawal key now) := by
    simp [withdrawRemoved, andThen_apply, when,
      OrdMap.containsKey_eq_false.mpr gone.1]
  rw [holds]
  exact repeatThenSend_retired _ (keyed.of_selected rfl) gone (holdWithdrawal_held s)

/-- The state of the loop over the keys that left the origin set. -/
def Shed (removed : List RouteKey) (s : Engine P M) : Prop :=
  SelectedKeyed s ∧ ∀ key ∈ removed, s.originated.get? key = none

theorem Shed.codas {removed : List RouteKey} (shed : Shed removed s)
    (coda : Steps (Output false now) s actions t) : Shed removed t :=
  ⟨shed.1.of_selected (outputs_sameRoutes coda).selected, fun key member =>
    (congrArg (OrdMap.get? · key) (outputs_sameRoutes coda).originated).trans (shed.2 key member)⟩

/-- Each key that left the origin set is retired by its turn in the loop. -/
theorem withdrawAll_retired {removed : List RouteKey} (s : Engine P M) (shed : Shed removed s)
    (member : key ∈ removed)
    (gone : Gone (forEach removed (withdrawRemoved now) s).1 key) :
    Retired key now (forEach removed (withdrawRemoved now) s).2
      (forEach removed (withdrawRemoved now) s).1 := by
  have turn : ∀ other ∈ removed, ∀ u : Engine P M, Shed removed u → Steps (Output false now) u
      (withdrawRemoved now other u).2 (withdrawRemoved now other u).1 :=
    fun other inside u before => withdrawRemoved_coda other u (before.2 other inside)
  have each : ∀ other ∈ removed, Meets
      (Effect.Guarded (Shed (P := P) (M := M) removed) (Steps (Output false now)))
      (withdrawRemoved now other) := fun other inside u before =>
    ⟨before.codas (turn other inside u before), turn other inside u before⟩
  obtain ⟨early, middle, late, reached, outputs, left⟩ := forEach_reaches
    (guarded_chains (Shed removed) (output_chains _ now)) each member s
  have between : Shed removed middle := (reached shed).1
  have here := turn key member middle between
  have after := between.codas here
  have rest := (left after).2
  have lost : Gone middle key := gone.congr
    ((outputs_sameRoutes rest).selected.trans (outputs_sameRoutes here).selected)
    ((outputs_sameRoutes rest).originated.trans (outputs_sameRoutes here).originated)
  rw [outputs]
  exact ((withdrawRemoved_retired middle between.1 lost).then (outputs_loses rest after.1)
    gone).after early

theorem setOrigins_retired (origins : OrdMap RouteKey UInt16) (removed : List RouteKey)
    (worse : Bool) (s : Engine P M) (absent : ∀ other ∈ removed, origins.containsKey other = false)
    (member : key ∈ removed) (gone : Gone (setOrigins order origins removed worse now s).1 key) :
    Retired key now (setOrigins order origins removed worse now s).2
      (setOrigins order origins removed worse now s).1 := by
  have shed : Shed removed (reselect order now (installOrigins origins worse s).1).1 :=
    ⟨reselect_keyed order now _, fun other listed =>
      installOrigins_absent origins worse s (absent other listed)⟩
  have loop : Steps (Output false now) (reselect order now (installOrigins origins worse s).1).1 _ _ :=
    withdrawAll_coda removed _ shed.2
  have closing : Steps (Output false now) (forEach removed (withdrawRemoved now)
      (reselect order now (installOrigins origins worse s).1).1).1 _ _ := closeOrigins_coda _
  have retired := withdrawAll_retired _ shed member
    (gone.congr (outputs_sameRoutes closing).selected (outputs_sameRoutes closing).originated)
  exact ((retired.then (outputs_loses closing (shed.codas loop).1) gone).after _).after _

theorem replaceOrigins_retired (origins : OrdMap RouteKey UInt16) (s : Engine P M)
    (own : s.originated.containsKey key = true) (dropped : origins.containsKey key = false)
    (gone : Gone (replaceOrigins order origins now s).1 key) :
    Retired key now (replaceOrigins order origins now s).2
      (replaceOrigins order origins now s).1 := by
  unfold replaceOrigins at gone ⊢
  split_ifs at gone ⊢ with unchanged
  · rw [OrdMap.containsKey, gone.2] at own
    cases own
  · refine setOrigins_retired order origins _ _ s (fun other listed => ?_) ?_ gone
    · simpa using (List.mem_filter.mp listed).2
    · exact List.mem_filter.mpr ⟨OrdMap.mem_keys_iff.mpr own, by simp [dropped]⟩

/-! ### Every event -/

section Events
variable [NeighborMetric M] [MetricProfile P M]

theorem PacketPhase.retired {neighbour : NeighborKey} {tlvs : List Tlv}
    (phase : PacketPhase neighbour now tlvs s actions t) (keyed : SelectedKeyed s)
    (live : ¬ Gone s key) (gone : Gone t key) :
    Retired key now actions t := by
  cases phase with
  | dropped _ => exact absurd gone live
  | @processed heard greeted middle chosen _ greeting replies _ _ observes greets _ processes
      reselects announces =>
      have observed := observations_senses observes
      have greeted := outputs_sameRoutes (utterances_outputs greets)
      have receives := processes.receives
      have same := receives.selected.trans (greeted.selected.trans observed.selected)
      have kept : ¬ Gone middle key := by
        rintro ⟨unselected, withdrawn⟩
        refine live ⟨same ▸ unselected, ?_⟩
        rw [← OrdMap.containsKey_eq_false, ← observed.originated, ← greeted.originated,
          ← receives.owned]
        exact OrdMap.containsKey_eq_false.mpr withdrawn
      have loses : Loses key now middle _ t :=
        loses_of_reselects reselects (utterances_outputs announces) (keyed.of_selected same)
      rw [List.append_assoc]
      exact (loses.retired kept gone).after _

theorem Dispatched.retired (dispatched : Dispatched event s actions t)
    (plain : event.editsOrigins = false) (keyed : SelectedKeyed s) (live : ¬ Gone s key)
    (gone : Gone t key) :
    Retired key event.now actions t := by
  have started : ∀ {start : Engine P M}, Reconfigures s start → ¬ Gone start key :=
    fun reconfigures lost => live (lost.congr reconfigures.selected reconfigures.originated)
  cases dispatched with
  | packet neighbour tlvs _ phase => exact phase.retired keyed live gone
  | edited edits _ =>
    rw [plain] at edits
    cases edits
  | phase start _ change phase =>
    exact (phase.loses (keyed.of_selected change.reconfigures.selected)).2.retired
      (started change.reconfigures) gone
  | phases start _ change phases =>
    exact (phases.fold (losesKeyed_chains key event.now) Phase.loses
      (keyed.of_selected change.reconfigures.selected)).2.retired (started change.reconfigures)
      gone

theorem handleValidated_retired (event : Event P) (s : Engine P M) (keyed : SelectedKeyed s)
    (live : ¬ Gone s key) (gone : Gone (handleValidated order event s).1 key) :
    Retired key event.now (handleValidated order event s).2 (handleValidated order event s).1 := by
  by_cases plain : event.editsOrigins = false
  · exact (handleValidated_dispatched order event s).retired plain keyed live gone
  · by_cases survives : Survives (s.originsAfter event) key s
    · cases handleValidated_dispatched order event s with
      | edited _ phase => exact phase.retired_of_survives keyed survives gone
      | packet _ _ received _ => cases event <;> simp_all [Event.received, Event.editsOrigins]
      | phase _ other _ _ => exact absurd other.2 plain
      | phases _ policy _ _ => cases event <;> simp_all [Event.changesPolicy, Event.editsOrigins]
    · -- The key was originated, and only here: the event takes the origin away.
      have unselected : s.selected.get? key = none := by
        rw [← OrdMap.containsKey_eq_false, ← Bool.not_eq_true]
        exact fun selected => survives (Or.inl selected)
      have own : s.originated.containsKey key = true := by
        by_contra absent
        rw [Bool.not_eq_true, OrdMap.containsKey_eq_false] at absent
        exact live ⟨unselected, absent⟩
      have dropped : s.originsAfter event key = false := by
        rw [← Bool.not_eq_true]
        exact fun later => survives (Or.inr ⟨own, later⟩)
      cases event with
      | originate origin metric now => simp [originsAfter, own] at dropped
      | withdraw origin now =>
        have same : key = origin := by simpa [originsAfter, own] using dropped
        subst same
        have existed : handleValidated order (.withdraw key now) s =
            removeOrigin order key true now s := by
          simp [handleValidated, withdraw, own]
        rw [existed] at gone ⊢
        exact removeOrigin_retired order s gone
      | replaceOrigins origins now => exact replaceOrigins_retired order origins s own dropped gone
      | _ => exact absurd rfl plain

/-- When a key leaves both the selected routes and the origins, it is held, and
on every interface that is up it is retracted to the multicast group with no
finite Update after that. -/
theorem lost_key_is_retracted_and_held {history : List (Event P × List Action)}
    {before after : Engine P M} {event : Event P} {actions : List Action}
    (run : RunOf anyEvent history before) (step : Step anyEvent before event actions after)
    (key : RouteKey)
    (live : before.selected.containsKey key = true ∨ before.originated.containsKey key = true)
    (unselected : after.selected.containsKey key = false)
    (withdrawn : after.originated.containsKey key = false) :
    after.tombstones.containsKey key = true ∧
      ∀ interface state, after.interfaces.get? interface = some state →
        ∃ earlier retraction later, sentUpdates actions = earlier ++ retraction :: later ∧
          retraction.interface = interface ∧
          retraction.destination = state.policy.controlTransport.multicast ∧
          retraction.update.key = some key ∧ retraction.update.metric = INFINITY ∧
          ∀ sent ∈ later, sent.interface = interface → sent.update.key = some key →
            sent.update.metric = INFINITY := by
  obtain ⟨_, order, handled⟩ := step
  obtain ⟨_, rfl, rfl⟩ := tryHandle_ok handled
  rw [OrdMap.containsKey_eq_false] at unselected withdrawn
  have present : ¬ Gone before key := by
    rintro ⟨absent, foreign⟩
    rw [← OrdMap.containsKey_eq_false] at absent foreign
    rcases live with selected | own
    · rw [selected] at absent
      cases absent
    · rw [own] at foreign
      cases foreign
  obtain ⟨⟨deadline, held, _⟩, retracted⟩ := handleValidated_retired order event before run.keyed
    present ⟨unselected, withdrawn⟩
  refine ⟨OrdMap.containsKey_iff.mpr ⟨deadline, held⟩, fun interface state up => ?_⟩
  obtain ⟨earlier, retraction, later, split, ⟨link, target, named, infinite⟩, silent⟩ :=
    retracted interface _ ⟨state, up, rfl⟩
  exact ⟨earlier, retraction, later, split, link, target, named, infinite, silent⟩

end Events

section Concrete
open Conformance

/-- The neighbour behind the selected route retracts it; the loss is announced on
both interfaces. -/
theorem retracted_route_is_retracted_and_held :
    ∃ (before after : Harness) (actions : List Action),
      before.selected.containsKey destination = true ∧
        after.tombstones.containsKey destination = true ∧
        after.interfaces.keys = [link 1, link 2] ∧
        ∀ interface state, after.interfaces.get? interface = some state →
          ∃ earlier retraction later, sentUpdates actions = earlier ++ retraction :: later ∧
            retraction.interface = interface ∧
            retraction.destination = state.policy.controlTransport.multicast ∧
            retraction.update.key = some destination ∧ retraction.update.metric = INFINITY ∧
            ∀ sent ∈ later, sent.interface = interface → sent.update.key = some destination →
              sent.update.metric = INFINITY := by
  obtain ⟨history, before, after, actions, run, step, live, unselected, withdrawn, up⟩ :=
    step_of_checked_play anyEvent (harness (nodeId 0))
    [.interfaceUp (link 1) [] 0,
      .interfaceUp (link 2) [] 0,
      packet (link 1) (address 2) (greeting 96) 1,
      packet (link 1) (address 2) [routeUpdate destination (address 2) (nodeId 1) 100 0] 2]
    (packet (link 1) (address 2) [routeUpdate destination (address 2) (nodeId 1) 100 INFINITY] 3)
    (fun before _ (after : Harness) =>
      before.selected.containsKey destination = true ∧
      after.selected.containsKey destination = false ∧
      after.originated.containsKey destination = false ∧
      after.interfaces.keys = [link 1, link 2])
    rfl (by decide +kernel)
  obtain ⟨held, retracted⟩ :=
    lost_key_is_retracted_and_held run step destination (Or.inl live) unselected withdrawn
  exact ⟨before, after, actions, live, held, up, retracted⟩

end Concrete

end Engine

end BabelRs
