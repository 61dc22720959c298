import BabelRs.Safety.Stages

/-!
# Coherence along a run

Link sensing and aging keep candidates filed and ask for reselection whenever
they change an input of it; so every handled event leaves the RIB coherent.
-/

set_option autoImplicit false

namespace BabelRs

open Lib Lib.Effect

namespace Engine

variable {P M : Type}
variable {s t : Engine P M}

/-! ## Link sensing -/

structure Observes (key : NeighborKey) (s t : Engine P M) : Prop where
  candidates : t.candidates = s.candidates
  others : ∀ other, other ≠ key → t.metricOf other = s.metricOf other
  heard : ∀ metric, s.metricOf key = some metric → ∃ heard, t.metricOf key = some heard

theorem Observes.refl (key : NeighborKey) (s : Engine P M) : Observes key s s :=
  ⟨rfl, fun _ _ => rfl, fun metric known => ⟨metric, known⟩⟩

variable {middle : Engine P M} {key : NeighborKey}

theorem Observes.trans (first : Observes key s middle) (second : Observes key middle t) :
    Observes key s t where
  candidates := second.candidates.trans first.candidates
  others := fun other apart => (second.others other apart).trans (first.others other apart)
  heard := fun metric known => by
    obtain ⟨next, heard⟩ := first.heard metric known
    exact second.heard next heard

theorem observes_insert (key : NeighborKey) (state : Neighbor M) (s : Engine P M) :
    Observes key s { s with neighbours := s.neighbours.insert key state } where
  candidates := rfl
  others := fun other apart => by
    simp only [metricOf, AssocMap.get?_insert_of_ne _ _ (Ne.symm apart)]
  heard := fun _ _ => ⟨state.metric, by simp [metricOf]⟩

theorem observes_modify (key : NeighborKey) (change : Neighbor M → Neighbor M) (s : Engine P M) :
    Observes key s { s with neighbours := s.neighbours.modify key change } where
  candidates := rfl
  others := fun other apart => by
    simp only [metricOf, AssocMap.get?_modify, if_neg apart, Option.map_id']
  heard := fun metric known => by
    obtain ⟨state, located, _⟩ := Option.map_eq_some_iff.mp known
    exact ⟨(change state).metric, by simp [metricOf, AssocMap.get?_modify, located]⟩

theorem Named.observe (sensing : SensingFrame s t) (observes : Observes key s t) (names : Named s) :
    Named t where
  named := by
    intro routeKey neighbour candidate found
    rw [observes.candidates] at found
    rw [sensing.config]
    exact names.named routeKey neighbour candidate found
  known := by
    intro routeKey neighbour candidate found
    rw [observes.candidates] at found
    obtain ⟨metric, linked⟩ := names.known routeKey neighbour candidate found
    by_cases here : neighbour = key
    · subst here
      exact observes.heard metric linked
    · rw [observes.others neighbour here]
      exact ⟨metric, linked⟩
  keyed := by
    intro routeKey route found
    rw [sensing.selected] at found
    exact names.keyed routeKey route found

/-! ## Expiry without a flag -/

theorem SameCores.trans (first : SameCores s middle) (second : SameCores middle t) :
    SameCores s t :=
  fun entry => (second entry).trans (first entry)

theorem dropSilentNeighbours_cores (s : Engine P M) (unflagged : (s.dropSilentNeighbours).2 = false) :
    SameCores s (s.dropSilentNeighbours).1 := by
  intro entry
  simp only [dropSilentNeighbours, AssocMap.get?_retain]
  congr 1
  cases s.candidates.get? entry with
  | none => rfl
  | some candidate =>
    refine Option.filter_eq_some_iff.mpr ⟨rfl, ?_⟩
    cases located : s.neighbours.get? entry.2 with
    | none => rfl
    | some state =>
      have heard := List.any_eq_false.mp unflagged _ (AssocMap.get?_eq_some_iff.mp located)
      simpa using heard

theorem expireCandidates_cores (now : UInt64) (s : Engine P M)
    (unflagged : (s.expireCandidates now).2 = false) :
    SameCores s (s.expireCandidates now).1 := by
  intro entry
  simp only [expireCandidates, AssocMap.get?_mapValues, AssocMap.get?_retain]
  cases stored : s.candidates.get? entry with
  | none => rfl
  | some candidate =>
    have live : expiredCandidate now candidate = false := by
      simpa using List.any_eq_false.mp unflagged _ (AssocMap.get?_eq_some_iff.mp stored)
    simp [live]

theorem requestRefreshes_cores (order : HashOrder) (now : UInt64) (s : Engine P M) :
    SameCores s (s.requestRefreshes order now).1 := by
  intro entry
  simp only [requestRefreshes, AssocMap.get?_mapValues]
  cases s.candidates.get? entry with
  | none => rfl
  | some candidate =>
    simp only [Option.map_some]
    split <;> rfl

/-- The part of the state that coherence is about. -/
structure RibFrame (s t : Engine P M) : Prop where
  config : t.config = s.config
  selected : t.selected = s.selected
  candidates : t.candidates = s.candidates
  metrics : ∀ key, t.metricOf key = s.metricOf key
  feasible : t.feasible = s.feasible

theorem Adjusts.ribFrame {now : UInt64} (change : Adjusts now s t) : RibFrame s t := by
  cases change with
  | attached interface localAddresses policy =>
    unfold attachInterface
    split <;> exact ⟨rfl, rfl, rfl, fun _ => rfl, rfl⟩
  | installed _ _ => exact ⟨rfl, rfl, rfl, fun _ => rfl, rfl⟩
  | readdressed _ _ => exact ⟨rfl, rfl, rfl, fun _ => rfl, rfl⟩

section Metric
variable [NeighborMetric M] {now : UInt64}

/-! ## Recomputed metrics -/

section Recompute
variable (only : Option NeighborKey) (s : Engine P M)

theorem recompute_named (names : Named s) : Named (s.recomputeCandidateMetrics only).1 where
  named := by
    intro key neighbour candidate found
    rw [get?_recomputed] at found
    obtain ⟨old, stored, rfl⟩ := Option.map_eq_some_iff.mp found
    exact names.named key neighbour old stored
  known := by
    intro key neighbour candidate found
    rw [get?_recomputed] at found
    obtain ⟨old, stored, rfl⟩ := Option.map_eq_some_iff.mp found
    exact names.known key neighbour old stored
  keyed := names.keyed

/-- Recomputation brings the metrics of the neighbours it visits up to date and
keeps those that are. -/
theorem recompute_current {neighbour : NeighborKey}
    (visited : (only.all fun wanted => decide (wanted = neighbour)) = true ∨
      CurrentAt s neighbour) :
    CurrentAt (s.recomputeCandidateMetrics only).1 neighbour := by
  intro key candidate metric found linked
  rw [get?_recomputed] at found
  obtain ⟨old, stored, rfl⟩ := Option.map_eq_some_iff.mp found
  have linkedBefore : s.metricOf neighbour = some metric := linked
  obtain ⟨state, located, rfl⟩ := Option.map_eq_some_iff.mp linkedBefore
  simp only [recomputedMetric, located]
  split
  next => rfl
  next skipped =>
    rcases visited with here | current
    · exact absurd here skipped
    · exact current key old state.metric stored linkedBefore

theorem recompute_unflagged (unflagged : (s.recomputeCandidateMetrics only).2 = false)
    (entry : RouteKey × NeighborKey) :
    (s.recomputeCandidateMetrics only).1.candidates.get? entry = s.candidates.get? entry := by
  rw [get?_recomputed]
  cases stored : s.candidates.get? entry with
  | none => rfl
  | some candidate =>
    have same := List.any_eq_false.mp unflagged _ (AssocMap.get?_eq_some_iff.mp stored)
    simp only [bne_iff_ne, ne_eq, not_not] at same
    rw [Option.map_some, ← same]

end Recompute

/-- An observation leaves the candidates of a neighbour current when its link
cost did not change. -/
theorem CurrentAt.observe {neighbour : NeighborKey} (sensing : SensingFrame s t)
    (observes : Observes key s t) (cost : neighbour = key → s.linkCostOf key = t.linkCostOf key)
    (names : Named s) (current : CurrentAt s neighbour) : CurrentAt t neighbour := by
  intro routeKey candidate metric found linked
  rw [observes.candidates] at found
  rw [sensing.config]
  by_cases here : neighbour = key
  · obtain ⟨old, linkedBefore⟩ := names.known routeKey neighbour candidate found
    have costs : (s.metricOf neighbour).map NeighborMetric.linkCost =
        (t.metricOf neighbour).map NeighborMetric.linkCost := by
      simp only [metricOf, Option.map_map, here]
      exact cost here
    rw [linkedBefore, linked] at costs
    rw [current routeKey candidate old found linkedBefore, Option.some.inj costs]
  · rw [observes.others neighbour here] at linked
    exact current routeKey candidate metric found linked

/-! ## Packets -/

def Coheres (s : Engine P M) (_actions : List Action) (t : Engine P M) : Prop :=
  Filed s → Filed t ∧ (Settled s → Settled t)

theorem coheres_chains : Chains (Coheres (P := P) (M := M)) where
  refl := fun s filed => ⟨filed, fun settled => settled⟩
  trans := by
    intro s middle t _ _ first second filed
    obtain ⟨filedMiddle, settledMiddle⟩ := first filed
    obtain ⟨filedNow, settledNow⟩ := second filedMiddle
    exact ⟨filedNow, fun settled => settledNow (settledMiddle settled)⟩

variable {actions : List Action}

theorem Announces.coheres {gone : RouteKey → Prop} (announces : Announces gone now s actions t) :
    Coheres s actions t :=
  announces.coherent

theorem RibFrame.coheres (frame : RibFrame s t) (actions : List Action) :
    Coheres s actions t := by
  intro filed
  have filedNow : Filed t := by
    refine filed.inherit frame.config frame.selected (fun _ neighbour _ _ => frame.metrics neighbour)
      fun entry candidate found => ?_
    rw [frame.candidates] at found
    exact ⟨candidate, found, Inherits.refl candidate⟩
  refine ⟨filedNow, Settled.transfer filedNow frame.selected (fun entry => ?_) fun _ _ _ _ => ?_⟩
  · rw [frame.candidates]
  · rw [frame.feasible]

variable {ticks : Bool}

theorem Output.coheres (output : Output ticks now s actions t) :
    Coheres s actions t := by
  cases output.coda with
  | announced announces => exact announces.coheres
  | _ =>
    refine RibFrame.coheres ?_ _
    exact ⟨rfl, rfl, rfl, fun _ => rfl, rfl⟩

theorem utterances_coheres (utterances : Steps (Utterance ticks now) s actions t) :
    Coheres s actions t :=
  (utterances_announces utterances : Announces nothingLost now s actions t).coheres

theorem coheres_of_reselected (order : HashOrder) (now : UInt64) (filed : Filed s → Filed t) :
    Coheres s (reselect order now t).2 (reselect order now t).1 := by
  intro before
  obtain ⟨filedNow, settledNow⟩ := reselect_coherent order now t (filed before)
  exact ⟨filedNow, fun _ => settledNow⟩

theorem Reselects.coheres (reselects : Reselects now s actions t) :
    Coheres s actions t := by
  cases reselects with
  | skipped => exact coheres_chains.refl s
  | taken order => exact coheres_of_reselected order now fun filed => filed

theorem edited_coheres {before : Engine P M} {event : Event P}
    (phase : Phase (Edit before event) ticks now s actions t) :
    Coheres s actions t := by
  refine phase.fold coheres_chains (fun edit => RibFrame.coheres ?_ _) Reselects.coheres
    Output.coheres
  cases edit <;> exact ⟨rfl, rfl, rfl, fun _ => rfl, rfl⟩

/-- A change that asks for reselection when it disturbs coherence, and reselection. -/
theorem coheres_of_flagged (order : HashOrder) (now : UInt64) {flag : Bool}
    (changed : CoherentUnless flag s t) :
    Coheres s (when (fun _ => flag) (reselect order now) t).2
      (when (fun _ => flag) (reselect order now) t).1 := by
  cases flag with
  | true => exact coheres_of_reselected order now fun filed => (changed filed).1
  | false =>
    intro filed
    obtain ⟨filedNow, settledNow⟩ := changed filed
    exact ⟨filedNow, settledNow rfl⟩

theorem CoherentUnless.trans {first second : Bool} (left : CoherentUnless first s middle)
    (right : CoherentUnless second middle t) :
    CoherentUnless (first || second) s t := by
  intro filed
  obtain ⟨filedMiddle, settledMiddle⟩ := left filed
  obtain ⟨filedNow, settledNow⟩ := right filedMiddle
  refine ⟨filedNow, fun unflagged settled => ?_⟩
  obtain ⟨firstUnflagged, secondUnflagged⟩ := Bool.or_eq_false_iff.mp unflagged
  exact settledNow secondUnflagged (settledMiddle firstUnflagged settled)

/-- The TLV loop: what it leaves incoherent it flags. -/
theorem receiveTlvs_coherent (order : HashOrder) (neighbour : NeighborKey) (now : UInt64)
    (tlvs : List Tlv) (state : ReceiveState P M) :
    ∃ changed, (forEach tlvs (receiveTlv order neighbour now) state).1.routesChanged =
        (state.routesChanged || changed) ∧
      CoherentUnless changed state.engine
        (forEach tlvs (receiveTlv order neighbour now) state).1.engine := by
  induction tlvs generalizing state with
  | nil => exact ⟨false, by simp, fun filed => ⟨filed, fun _ settled => settled⟩⟩
  | cons tlv rest ih =>
    obtain ⟨changed, flag, effect⟩ := receiveTlv_effect order neighbour now tlv state
    obtain ⟨later, flagLater, coherent⟩ := ih (receiveTlv order neighbour now tlv state).1
    refine ⟨changed || later, ?_, effect.coherent.trans coherent⟩
    rw [forEach_cons]
    simp only [andThen_apply, flagLater, flag, Bool.or_assoc]

theorem receiveRoutes_coherent (order : HashOrder) (neighbour : NeighborKey) (tlvs : List Tlv)
    {routesChanged : Bool} (changed : CoherentUnless routesChanged s t) :
    Coheres s (receiveRoutes order neighbour now tlvs routesChanged t).2
      (receiveRoutes order neighbour now tlvs routesChanged t).1 := by
  obtain ⟨later, flag, coherent⟩ :=
    receiveTlvs_coherent order neighbour now tlvs ⟨t, routesChanged, .empty⟩
  have processed := changed.trans coherent
  rw [← flag] at processed
  have announced : ∀ keys (u : Engine P M), Coheres u
      (forEach keys (announceRouterIdChange now) u).2
      (forEach keys (announceRouterIdChange now) u).1 := fun keys u =>
    utterances_coheres (announceRouterIdChanges_utters keys u : Steps (Utterance false now) u _ _)
  exact coheres_chains.trans (coheres_of_flagged order now processed) (announced _ _)

/-! ## Observations of a packet -/

theorem observeIhus_observes (key : NeighborKey) (localAddresses : List IpAddr) (now : UInt64)
    (tlvs : List Tlv) (s : Engine P M) : Observes key s (s.observeIhus key localAddresses now tlvs) := by
  refine List.foldlRecOn tlvs _ (Observes.refl key s) fun state observed tlv _ => ?_
  cases tlv with
  | ihu address rxcost intervalCs subTlvs =>
    simp only
    split
    · exact observed.trans (observes_modify key _ state)
    · exact observed
  | _ => exact observed

section Observe
variable [MetricProfile P M]

theorem observeHellos_observes (profile : P) (key : NeighborKey) (helloIntervalCs : UInt16)
    (receiveTimestamp : UInt32) (now : UInt64) (tlvs : List Tlv) (s : Engine P M) :
    Observes key s
      (s.observeHellos profile key helloIntervalCs receiveTimestamp now tlvs).1 := by
  refine List.foldlRecOn tlvs _ (motive := fun (state : Engine P M × Bool) => Observes key s state.1)
    (Observes.refl key s) fun state observed tlv _ => ?_
  cases tlv with
  | hello unicast seqno intervalCs subTlvs =>
    exact observed.trans (observes_insert key _ state.1)
  | _ => exact observed

theorem observeRtt_observes (profile : P) (key : NeighborKey) (sample : Option UInt32)
    (now : UInt64) (s : Engine P M) : Observes key s (s.observeRtt profile key sample now) := by
  unfold observeRtt
  cases sample with
  | none => exact Observes.refl key s
  | some sample =>
    simp only
    split
    · exact observes_modify key _ s
    · exact Observes.refl key s

/-- What a packet's observations add up to, before candidate metrics follow. -/
theorem observe_cases (state : InterfaceState P) (key : NeighborKey) (packet : Packet)
    (now : UInt64) (receiveTimestamp : UInt32) (s : Engine P M) :
    ∃ heard : Engine P M, SensingFrame s heard ∧ Observes key s heard ∧
      (s.linkCostOf key = heard.linkCostOf key ∧
          (s.observe state key packet now receiveTimestamp).1 = heard ∨
        (s.observe state key packet now receiveTimestamp).1 =
            (heard.recomputeCandidateMetrics (some key)).1 ∧
          (s.observe state key packet now receiveTimestamp).2.1 =
            (heard.recomputeCandidateMetrics (some key)).2) := by
  have sensing := ((observeHellos_sensing state.policy.metric key state.policy.helloIntervalCs
    receiveTimestamp now packet.tlvs s).trans (observeRtt_sensing state.policy.metric key
      (packet.rttSample state.localAddresses receiveTimestamp) now _)).trans
    (observeIhus_sensing key state.localAddresses now packet.tlvs _)
  have observes := ((observeHellos_observes state.policy.metric key
    state.policy.helloIntervalCs receiveTimestamp now packet.tlvs s).trans
      (observeRtt_observes state.policy.metric key
        (packet.rttSample state.localAddresses receiveTimestamp) now _)).trans
    (observeIhus_observes key state.localAddresses now packet.tlvs _)
  refine ⟨_, sensing, observes, ?_⟩
  simp only [observe]
  split
  next => exact Or.inr ⟨rfl, rfl⟩
  next same => exact Or.inl ⟨not_not.mp same, rfl⟩

/-- Observations keep the candidates of the observed neighbour current: a changed
link cost has them recomputed. -/
theorem observe_coherent (state : InterfaceState P) (key : NeighborKey) (packet : Packet)
    (now : UInt64) (receiveTimestamp : UInt32) (s : Engine P M) :
    CoherentUnless (s.observe state key packet now receiveTimestamp).2.1 s
      (s.observe state key packet now receiveTimestamp).1 := by
  have frame := observe_sensing state key packet now receiveTimestamp s
  obtain ⟨heard, sensing, observes, ⟨sameCost, same⟩ | ⟨recomputed, flag⟩⟩ :=
    observe_cases state key packet now receiveTimestamp s
  · refine CoherentUnless.intro (fun filed => ?_) frame.selected (fun _ _ entry => ?_)
      fun _ _ _ _ _ _ _ => by rw [frame.feasible]
    · rw [same]
      exact ⟨filed.toNamed.observe sensing observes, fun neighbour =>
        (filed.current neighbour).observe sensing observes (fun _ => sameCost) filed.toNamed⟩
    · rw [same, observes.candidates]
  · rw [flag]
    refine CoherentUnless.intro (fun filed => ?_) frame.selected (fun _ unflagged entry => ?_)
      fun _ _ _ _ _ _ _ => by rw [frame.feasible]
    · rw [recomputed]
      refine ⟨recompute_named _ heard (filed.toNamed.observe sensing observes), fun neighbour => ?_⟩
      apply recompute_current
      by_cases here : neighbour = key
      · exact Or.inl (by simp [here])
      · exact Or.inr ((filed.current neighbour).observe sensing observes
          (fun same => absurd same here) filed.toNamed)
    · rw [recomputed, recompute_unflagged _ heard unflagged, observes.candidates]

theorem receive_coheres (order : HashOrder) (interface : InterfaceName) (source : IpAddr)
    (packet : Packet) (receiveTimestamp : UInt32) :
    Meets (Coheres (P := P) (M := M))
      (receive order interface source packet now receiveTimestamp) := by
  intro s
  rcases receive_cases order interface source packet now receiveTimestamp s with
    ⟨rejections, dropped⟩ | ⟨state, _, _, _, processed⟩
  · rw [dropped]
    have counted : RibFrame s { s with rejections := rejections } :=
      ⟨rfl, rfl, rfl, fun _ => rfl, rfl⟩
    exact counted.coheres []
  · rw [processed]
    have observed := observe_coherent state ⟨interface, source⟩ packet now receiveTimestamp s
    have answered : ∀ due (u : Engine P M), Coheres u _ _ := fun due u =>
      utterances_coheres (dueIhu_utters ⟨interface, source⟩ due u : Steps (Utterance false now) u _ _)
    refine receiveRoutes_coherent order _ _ fun filed => ?_
    obtain ⟨filedNow, settledNow⟩ := observed filed
    obtain ⟨filedLater, settledLater⟩ := answered _ _ filedNow
    exact ⟨filedLater, fun unflagged settled => settledLater (settledNow unflagged settled)⟩

end Observe

/-! ## Aging -/

theorem Inherits.trans {first second third : Candidate} (left : Inherits first second)
    (right : Inherits second third) : Inherits first third where
  key := left.key.trans right.key
  interface := left.interface.trans right.interface
  routerId := left.routerId.trans right.routerId
  metrics := by
    rcases left.metrics with ⟨advertised, metric⟩ | infinite
    · rw [advertised, metric]
      exact right.metrics
    · exact Or.inr infinite

/-- Candidates disappear or are retracted; the neighbours of the others stay, and
those that are not `stale` keep their link cost. -/
structure Ages (stale : List NeighborKey) (s t : Engine P M) : Prop where
  config : t.config = s.config
  selected : t.selected = s.selected
  inherited : ∀ entry candidate, t.candidates.get? entry = some candidate →
    ∃ old, s.candidates.get? entry = some old ∧ Inherits candidate old
  linked : ∀ entry candidate metric, t.candidates.get? entry = some candidate →
    s.metricOf entry.2 = some metric → ∃ aged, t.metricOf entry.2 = some aged ∧
      (entry.2 ∉ stale → NeighborMetric.linkCost aged = NeighborMetric.linkCost metric)

theorem Ages.trans {first second : List NeighborKey} (left : Ages first s middle)
    (right : Ages second middle t) : Ages (first ++ second) s t where
  config := right.config.trans left.config
  selected := right.selected.trans left.selected
  inherited := by
    intro entry candidate found
    obtain ⟨between, stored, inherits⟩ := right.inherited entry candidate found
    obtain ⟨old, storedBefore, inheritsBefore⟩ := left.inherited entry between stored
    exact ⟨old, storedBefore, inherits.trans inheritsBefore⟩
  linked := by
    intro entry candidate metric found linked
    obtain ⟨between, stored, _⟩ := right.inherited entry candidate found
    obtain ⟨aged, agedLink, sameCost⟩ := left.linked entry between metric stored linked
    obtain ⟨final, finalLink, sameLater⟩ := right.linked entry candidate aged found agedLink
    refine ⟨final, finalLink, fun fresh => ?_⟩
    rw [List.mem_append, not_or] at fresh
    rw [sameLater fresh.2, sameCost fresh.1]

theorem Ages.filed {stale : List NeighborKey} (ages : Ages stale s t) (filed : Filed s) :
    Named t ∧ ∀ neighbour, neighbour ∉ stale → CurrentAt t neighbour := by
  refine ⟨⟨?_, ?_, ?_⟩, ?_⟩
  · intro key neighbour candidate found
    obtain ⟨old, stored, inherits⟩ := ages.inherited _ candidate found
    rw [inherits.key, inherits.interface, inherits.routerId, ages.config]
    exact filed.named key neighbour old stored
  · intro key neighbour candidate found
    obtain ⟨old, stored, _⟩ := ages.inherited _ candidate found
    obtain ⟨metric, linked⟩ := filed.known key neighbour old stored
    obtain ⟨aged, agedLink, _⟩ := ages.linked _ candidate metric found linked
    exact ⟨aged, agedLink⟩
  · intro key route found
    rw [ages.selected] at found
    exact filed.keyed key route found
  · intro neighbour fresh key candidate metric found linked
    obtain ⟨old, stored, inherits⟩ := ages.inherited _ candidate found
    obtain ⟨before, linkedBefore⟩ := filed.known key neighbour old stored
    obtain ⟨aged, agedLink, sameCost⟩ := ages.linked _ candidate before found linkedBefore
    rw [agedLink] at linked
    cases linked
    rcases inherits.metrics with ⟨advertised, same⟩ | ⟨advertised, infinite⟩
    · rw [advertised, same, ages.config, sameCost fresh]
      exact filed.current neighbour key old before stored linkedBefore
    · rw [advertised, infinite, safeExtend_infinity]

section Aging
variable (s : Engine P M)

theorem ageNeighbours_ages [HelloGated M] (now : UInt64) :
    Ages (s.ageNeighbours now).2 s (s.ageNeighbours now).1 where
  config := rfl
  selected := rfl
  inherited := fun _ candidate found => ⟨candidate, found, Inherits.refl candidate⟩
  linked := by
    intro entry candidate metric found linked
    obtain ⟨state, located, rfl⟩ := Option.map_eq_some_iff.mp linked
    refine ⟨(state.age now).1.metric, by simp [metricOf, ageNeighbours, located], fun fresh => ?_⟩
    apply HelloGated.linkCost_onHello
    by_contra changed
    refine fresh (List.mem_map.mpr ⟨(entry.2, state), List.mem_filter.mpr
      ⟨AssocMap.get?_eq_some_iff.mp located, ?_⟩, rfl⟩)
    simpa [Neighbor.age] using changed

theorem dropSilentNeighbours_ages : Ages [] s (s.dropSilentNeighbours).1 where
  config := rfl
  selected := rfl
  inherited := by
    intro entry candidate found
    simp only [dropSilentNeighbours, AssocMap.get?_retain, Option.filter_eq_some_iff] at found
    exact ⟨candidate, found.1, Inherits.refl candidate⟩
  linked := by
    intro entry candidate metric found linked
    simp only [dropSilentNeighbours, AssocMap.get?_retain, Option.filter_eq_some_iff] at found
    obtain ⟨state, located, rfl⟩ := Option.map_eq_some_iff.mp linked
    have heard : state.silent = false := by
      simpa [located] using found.2
    exact ⟨state.metric, by simp [metricOf, dropSilentNeighbours, located, heard], fun _ => rfl⟩

theorem expireIhus_ages (now : UInt64) : Ages (s.expireIhus now).2 s (s.expireIhus now).1 where
  config := rfl
  selected := rfl
  inherited := fun _ candidate found => ⟨candidate, found, Inherits.refl candidate⟩
  linked := by
    intro entry candidate metric found linked
    obtain ⟨state, located, rfl⟩ := Option.map_eq_some_iff.mp linked
    refine ⟨(if state.ihuOverdue now then state.loseIhu else state).metric,
      by simp [metricOf, expireIhus, located], fun fresh => ?_⟩
    have recent : state.ihuOverdue now = false := by
      by_contra overdue
      exact fresh (List.mem_map.mpr ⟨(entry.2, state), List.mem_filter.mpr
        ⟨AssocMap.get?_eq_some_iff.mp located, by simpa using overdue⟩, rfl⟩)
    rw [recent]
    rfl

theorem expireCandidates_ages (now : UInt64) : Ages [] s (s.expireCandidates now).1 where
  config := rfl
  selected := rfl
  inherited := by
    intro entry candidate found
    simp only [expireCandidates, AssocMap.get?_mapValues, AssocMap.get?_retain,
      Option.map_eq_some_iff, Option.filter_eq_some_iff] at found
    obtain ⟨old, ⟨stored, _⟩, rfl⟩ := found
    refine ⟨old, stored, ?_⟩
    split
    · exact ⟨rfl, rfl, rfl, Or.inr ⟨rfl, rfl⟩⟩
    · exact Inherits.refl old
  linked := by
    intro entry candidate metric _ linked
    obtain ⟨state, located, rfl⟩ := Option.map_eq_some_iff.mp linked
    exact ⟨state.metric, by simp [metricOf, expireCandidates, located], fun _ => rfl⟩

theorem requestRefreshes_ages (order : HashOrder) (now : UInt64) :
    Ages [] s (s.requestRefreshes order now).1 where
  config := rfl
  selected := rfl
  inherited := by
    intro entry candidate found
    simp only [requestRefreshes, AssocMap.get?_mapValues, Option.map_eq_some_iff] at found
    obtain ⟨old, stored, rfl⟩ := found
    refine ⟨old, stored, ?_⟩
    split
    · exact ⟨rfl, rfl, rfl, Or.inl ⟨rfl, rfl⟩⟩
    · exact Inherits.refl old
  linked := fun _ _ metric _ linked => ⟨metric, linked, fun _ => rfl⟩

theorem collectExpired_ages (now : UInt64) : Ages [] s (s.collectExpired now) :=
  ⟨rfl, rfl, fun _ candidate found => ⟨candidate, found, Inherits.refl candidate⟩,
    fun _ _ metric _ linked => ⟨metric, linked, fun _ => rfl⟩⟩

theorem agedTables_ages [HelloGated M] (order : HashOrder) (now : UInt64) :
    Ages (s.agedTables order now).2 s ((s.agedTables order now).1.collectExpired now) := by
  have aged := ((s.ageNeighbours_ages now).trans (dropSilentNeighbours_ages _)).trans
    (expireIhus_ages _ now)
  have expired := (aged.trans (expireCandidates_ages _ now)).trans
    (requestRefreshes_ages _ order now)
  have collected := expired.trans (collectExpired_ages _ now)
  simp only [List.append_nil] at collected
  exact collected

theorem recomputeEach_filed (keys : List NeighborKey) (flag : Bool) (names : Named s)
    (fresh : ∀ neighbour, neighbour ∉ keys → CurrentAt s neighbour) :
    Filed (keys.foldl (fun state key =>
      let recomputed := state.1.recomputeCandidateMetrics (some key)
      (recomputed.1, state.2 || recomputed.2)) (s, flag)).1 := by
  induction keys generalizing s flag with
  | nil => exact ⟨names, fun neighbour => fresh neighbour (by simp)⟩
  | cons key rest ih =>
    refine ih _ _ (recompute_named (some key) s names) fun neighbour absent => ?_
    apply recompute_current
    by_cases here : neighbour = key
    · exact Or.inl (by simp [here])
    · exact Or.inr (fresh neighbour (by simp [here, absent]))

theorem recomputeEach_unflagged (keys : List NeighborKey) (flag : Bool)
    (unflagged : (keys.foldl (fun state key =>
      let recomputed := state.1.recomputeCandidateMetrics (some key)
      (recomputed.1, state.2 || recomputed.2)) (s, flag)).2 = false) :
    flag = false ∧ SameCores s (keys.foldl (fun state key =>
      let recomputed := state.1.recomputeCandidateMetrics (some key)
      (recomputed.1, state.2 || recomputed.2)) (s, flag)).1 := by
  induction keys generalizing s flag with
  | nil => exact ⟨unflagged, fun _ => rfl⟩
  | cons key rest ih =>
    obtain ⟨flags, cores⟩ := ih _ _ unflagged
    obtain ⟨before, here⟩ := Bool.or_eq_false_iff.mp flags
    refine ⟨before, SameCores.trans (fun entry => ?_) cores⟩
    rw [recompute_unflagged (some key) s here]

/-- The silent half of a tick asks for reselection whenever it changes an input
of it. -/
theorem ageState_coherent [HelloGated M] (order : HashOrder) (now : UInt64) :
    CoherentUnless (s.ageState order now).routesMayHaveChanged s (s.ageState order now).engine := by
  have ages := agedTables_ages s order now
  have aging : SameCores s (s.ageNeighbours now).1 := fun _ => rfl
  refine CoherentUnless.intro (fun filed => ?_) (ageState_selected order now s) ?_ ?_
  · obtain ⟨names, fresh⟩ := ages.filed filed
    exact recomputeEach_filed _ _ false names fresh
  · intro _ unflagged
    simp only [ageState, Bool.or_eq_false_iff] at unflagged
    obtain ⟨⟨⟨⟨dropped, expired⟩, _⟩, _⟩, recomputed⟩ := unflagged
    have unheard := (aging.trans (dropSilentNeighbours_cores _ dropped)).trans
      (fun _ => rfl : SameCores _ (expireIhus now (s.ageNeighbours now).1.dropSilentNeighbours.1).1)
    have refreshed := (unheard.trans (expireCandidates_cores now _ expired)).trans
      (requestRefreshes_cores order now _)
    exact refreshed.trans (recomputeEach_unflagged _ _ false recomputed).2
  · intro _ _ unflagged key routerId _ _
    simp only [ageState, Bool.or_eq_false_iff, bne_eq_false_iff_eq] at unflagged
    rw [ageState_feasible]
    exact AssocMap.get?_retain_of_len unflagged.1.2 _

theorem tickRoutes_coheres (order : HashOrder) (now : UInt64) (holds : Nat) {flag : Bool}
    {s : Engine P M} (aged : CoherentUnless flag s t) :
    Coheres s (tickRoutes order now holds flag t).2 (tickRoutes order now holds flag t).1 := by
  have selected : Coheres s
      (when (fun engine : Engine P M => flag || !engine.pendingSwitches.entries.isEmpty)
        (reselect order now) t).2
      (when (fun engine : Engine P M => flag || !engine.pendingSwitches.entries.isEmpty)
        (reselect order now) t).1 := by
    have weaker : CoherentUnless (flag || !t.pendingSwitches.entries.isEmpty) s t :=
      aged.trans fun filed => ⟨filed, fun _ settled => settled⟩
    exact coheres_of_flagged order now weaker
  simp only [tickRoutes]
  split
  · exact coheres_chains.trans selected (Output.reported : Output false now _ _ _).coheres
  · exact selected

end Aging

/-! ## Events -/

/-- Neighbours and their candidates leave an interface together. -/
theorem detachNeighbours_filed (interface : InterfaceName) (s : Engine P M) (filed : Filed s) :
    Filed (s.detachNeighbours interface) := by
  refine Filed.inherit (s := s) rfl rfl (fun key neighbour candidate found => ?_)
    (fun entry candidate found => ?_) filed
  · simp only [detachNeighbours, AssocMap.get?_retain, Option.filter_eq_some_iff] at found
    obtain ⟨stored, elsewhere⟩ := found
    rw [(filed.named key neighbour candidate stored).2.1] at elsewhere
    simp only [metricOf, detachNeighbours, AssocMap.get?_retain, elsewhere]
    cases s.neighbours.get? neighbour <;> rfl
  · simp only [detachNeighbours, AssocMap.get?_retain, Option.filter_eq_some_iff] at found
    exact ⟨candidate, found.1, Inherits.refl candidate⟩

theorem applyRoutePolicy_filed (policy : RoutePolicy) (s : Engine P M) (filed : Filed s) :
    Filed (s.applyRoutePolicy policy) := by
  have kept : ∀ entry candidate, (s.applyRoutePolicy policy).candidates.get? entry =
      some candidate → s.candidates.get? entry = some candidate := by
    intro entry candidate found
    simp only [applyRoutePolicy, AssocMap.get?_retain, Option.filter_eq_some_iff] at found
    exact found.1
  have metrics : ∀ neighbour,
      (s.applyRoutePolicy policy).metricOf neighbour = s.metricOf neighbour := by
    intro neighbour
    simp only [metricOf, applyRoutePolicy, AssocMap.get?_mapValues, Option.map_map]
    rfl
  refine ⟨⟨?_, ?_, filed.keyed⟩, ?_⟩
  · exact fun key neighbour candidate found => filed.named key neighbour candidate (kept _ _ found)
  · intro key neighbour candidate found
    rw [metrics]
    exact filed.known key neighbour candidate (kept _ _ found)
  · intro neighbour key candidate metric found linked
    rw [metrics] at linked
    exact filed.current neighbour key candidate metric (kept _ _ found) linked

theorem Purges.filed (change : Purges s t) (filed : Filed s) : Filed t := by
  cases change with
  | detached interface => exact detachNeighbours_filed interface s filed
  | removed interface =>
    have detached := detachNeighbours_filed interface s filed
    exact ⟨⟨detached.named, detached.known, detached.keyed⟩, detached.current⟩
  | replaced policy => exact applyRoutePolicy_filed policy s filed

section Events
variable [MetricProfile P M] (order : HashOrder)

theorem tick_coheres [HelloGated M] : Meets (Coheres (P := P) (M := M)) (tick order now) := by
  intro s
  have settled := tickRoutes_coheres order now s.tombstones.len (ageState_coherent s order now)
  exact coheres_chains.trans settled (utterances_coheres (tickOutput_utters order s _))

theorem resetMetrics_coheres (interface : InterfaceName) (policy : InterfacePolicy P) :
    Meets (Coheres (P := P) (M := M)) (resetMetrics order interface policy now) := by
  intro s
  refine coheres_of_flagged order now (CoherentUnless.intro (fun filed => ?_) rfl
    (fun _ unflagged entry => ?_) fun _ _ _ _ _ _ _ => rfl)
  · refine ⟨recompute_named none _ ⟨filed.named, ?_, filed.keyed⟩, fun neighbour =>
      recompute_current none _ (Or.inl rfl)⟩
    intro key neighbour candidate found
    obtain ⟨metric, linked⟩ := filed.known key neighbour candidate found
    obtain ⟨state, located, _⟩ := Option.map_eq_some_iff.mp linked
    simp only [metricOf, AssocMap.get?_mapValues, located, Option.map_some]
    exact ⟨_, rfl⟩
  · rw [recompute_unflagged none _ unflagged]

theorem Stage.coheres [HelloGated M] (stage : Stage ticks order now s actions t) :
    Coheres s actions t := by
  cases stage with
  | adjusted change => exact change.ribFrame.coheres []
  | invalidated => exact fun filed => ⟨filed, fun settled => settled⟩
  | purged change => exact coheres_of_reselected order now change.filed
  | reset interface policy => exact resetMetrics_coheres order interface policy s
  | said utterance => exact utterances_coheres (.single utterance)
  | ticked _ => exact tick_coheres order s

theorem handleValidated_coheres [HelloGated M] (event : Event P) :
    Meets (Coheres (P := P) (M := M)) (handleValidated order event) := by
  intro s
  cases event with
  | packetReceived interface source packet now =>
    exact receive_coheres order interface source packet _ s
  | packetReceivedWithTimestamp interface source packet now timestamp =>
    exact receive_coheres order interface source packet timestamp s
  | originate key metric now => exact edited_coheres (originate_phase order key metric s)
  | withdraw key now => exact edited_coheres (removeOrigin_phase order key _ s)
  | replaceOrigins origins now => exact edited_coheres (replaceOrigins_phase order origins s)
  | _ => exact (handleValidated_stages order _ rfl rfl s).fold coheres_chains (Stage.coheres order)

theorem RunOf.coherent [HelloGated M] {allowed : Engine P M → Event P → Bool}
    {history : List (Event P × List Action)} {engine : Engine P M}
    (run : RunOf allowed history engine) : Filed engine ∧ Settled engine := by
  refine run.invariant (fun _ engine => Filed engine ∧ Settled engine) ?_ ?_
  · intro s starts
    obtain ⟨config, _, rfl⟩ := starts.eq_initial
    refine ⟨⟨⟨?_, ?_, ?_⟩, ?_⟩, ?_, ?_⟩
    · intro key neighbour candidate found
      cases found
    · intro key neighbour candidate found
      cases found
    · intro key route found
      cases found
    · intro neighbour key candidate metric found
      cases found
    · intro key route found
      cases found
    · intro key neighbour candidate found
      cases found
  · rintro history s event actions t ⟨filed, settled⟩ ⟨_, order, handled⟩
    obtain ⟨_, _, rfl⟩ := tryHandle_ok handled
    obtain ⟨filedNow, settledNow⟩ := handleValidated_coheres order event s filed
    have noted : RibFrame (handleValidated order event s).1
        (noteLifetimes (handleValidated order event s)) := ⟨rfl, rfl, rfl, fun _ => rfl, rfl⟩
    obtain ⟨filedAfter, settledAfter⟩ := noted.coheres [] filedNow
    exact ⟨filedAfter, settledAfter (settledNow settled)⟩

/-- After every event candidates carry the metric of their neighbour's current
link, selected routes come from finite candidates, and keys with a usable
candidate are selected. -/
theorem rib_coherent_after_every_event [HelloGated M] {history : List (Event P × List Action)}
    {engine : Engine P M} (run : RunOf anyEvent history engine) :
    (∀ key neighbour candidate, engine.candidates.get? (key, neighbour) = some candidate →
        ∃ state, engine.neighbours.get? neighbour = some state ∧
          candidate.metric = safeExtend engine.config.metricAlgebra candidate.advertisedMetric
            (NeighborMetric.linkCost state.metric)) ∧
      (∀ key route, engine.selected.get? key = some route →
        ∃ neighbour candidate, engine.candidates.get? (key, neighbour) = some candidate ∧
          candidate.key = key ∧ route = candidate.selected ∧ candidate.metric < INFINITY) ∧
      ∀ key neighbour candidate, engine.candidates.get? (key, neighbour) = some candidate →
        candidate.metric < INFINITY → engine.candidateIsFeasible candidate = true →
          engine.selected.containsKey key = true := by
  obtain ⟨filed, settled⟩ := run.coherent
  refine ⟨?_, ?_, ?_⟩
  · intro key neighbour candidate found
    obtain ⟨metric, linked⟩ := filed.known key neighbour candidate found
    obtain ⟨state, located, rfl⟩ := Option.map_eq_some_iff.mp linked
    exact ⟨state, located, filed.current neighbour key candidate _ found linked⟩
  · intro key route found
    obtain ⟨neighbour, candidate, stored, same, finite⟩ := settled.backed key route found
    exact ⟨neighbour, candidate, stored, (filed.named key neighbour candidate stored).1, same,
      finite⟩
  · intro key neighbour candidate found finite feasible
    exact OrdMap.containsKey_iff.mpr (settled.complete key neighbour candidate found finite feasible)

end Events

end Metric

section Concrete
open Conformance

/-- Two neighbours announce one destination over links of different cost, and the
better link degrades. -/
def degradingSteps : List (Event BuiltinProfile) :=
  [.interfaceUp (link 1) [] 0,
    .interfaceUp (link 2) [] 0,
    packet (link 1) (address 2) (greeting 96) 1,
    packet (link 2) (address 3) (greeting 200) 2,
    packet (link 1) (address 2) [routeUpdate destination (address 2) (nodeId 1) 100 0] 3,
    packet (link 2) (address 3) [routeUpdate destination (address 3) (nodeId 1) 100 0] 4,
    packet (link 1) (address 2) [.ihu none INFINITY 400 []] 5]

/-- The candidate of the lost link is infinite; the route is that of the other. -/
theorem rib_coherent_after_degraded_link :
    ∃ (history : List (Event BuiltinProfile × List Action)) (engine : Harness),
      RunOf anyEvent history engine ∧
        (engine.candidates.get? (destination, ⟨link 1, address 2⟩)).map Candidate.metric =
          some INFINITY ∧
        (engine.selected.get? destination).map SelectedRoute.interface = some (link 2) ∧
        ∀ key route, engine.selected.get? key = some route →
          ∃ neighbour candidate, engine.candidates.get? (key, neighbour) = some candidate ∧
            candidate.key = key ∧ route = candidate.selected ∧ candidate.metric < INFINITY := by
  obtain ⟨history, engine, run, checked⟩ := run_of_checked_play anyEvent
    (harness (nodeId 0)) degradingSteps
    (fun _ (engine : Harness) =>
      decide ((engine.candidates.get? (destination, ⟨link 1, address 2⟩)).map Candidate.metric =
          some INFINITY ∧
        (engine.selected.get? destination).map SelectedRoute.interface = some (link 2)))
    rfl (by decide +kernel)
  obtain ⟨lost, switched⟩ := of_decide_eq_true checked
  exact ⟨history, engine, run, lost, switched, (rib_coherent_after_every_event run).2.1⟩

end Concrete

end Engine

end BabelRs
