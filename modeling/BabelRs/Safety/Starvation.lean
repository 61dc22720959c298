import BabelRs.Safety.LastWord

/-!
# Recovery from starvation

A key that loses its route while a finite candidate for it remains is starving: the
candidate is infeasible, and reselection asks its neighbour for a newer sequence
number unless a request is pending.  A pending request may point to a neighbour
that is gone, or be given up by the very tick that loses the route.
-/

set_option autoImplicit false

namespace BabelRs

open Lib Lib.Effect

def Action.asks (key : RouteKey) (hop : NeighborKey) : Action → Bool
  | .send interface destination packet _ =>
    decide (interface = hop.interface) && decide (destination = hop.address) &&
      packet.tlvs.any fun
        | .seqnoRequest asked _ _ _ _ => decide (asked = key)
        | _ => false
  | _ => false

theorem seqnoRequestAction_asks (key : RouteKey) (routerId : RouterId) (seqno : UInt16)
    (hopCount : UInt8) (hop : NeighborKey) (now : UInt64) :
    (seqnoRequestAction key routerId seqno hopCount hop now).asks key hop = true := by
  simp [seqnoRequestAction, Action.asks]

namespace Engine

variable {P M : Type} {now : UInt64}
variable {s t : Engine P M} {actions : List Action} {event : Event P} {neighbour : NeighborKey}
  {order : HashOrder} {key : RouteKey} {tlvs : List Tlv}

/-! ## Requests under output -/

/-- Output other than retries leaves the pending requests alone. -/
def Idle (s : Engine P M) (_ : List Action) (t : Engine P M) : Prop :=
  t.pendingSeqno = s.pendingSeqno

theorem idle_chains : Chains (Idle (P := P) (M := M)) :=
  ⟨fun _ => rfl, fun first second => second.trans first⟩

/-- What reads neither the source table nor the interfaces survives a full Update. -/
theorem sendUpdates_keeps {α : Type} (read : Engine P M → α)
    (sources : ∀ (s : Engine P M) feasible, read { s with feasible := feasible } = read s)
    (interfaces : ∀ (s : Engine P M) interfaces, read { s with interfaces := interfaces } = read s)
    (only : Option RouteKey) (interface : Option InterfaceName) (timing : Option SendTiming)
    (s : Engine P M) : read (sendUpdates now only interface timing s).1 = read s := by
  have tlvs : Chains fun (s : Engine P M) (_ : List OutboundTlv) t => read t = read s :=
    ⟨fun _ => rfl, fun first second => second.trans first⟩
  have chains : Chains fun (s : Engine P M) (_ : List Action) t => read t = read s :=
    ⟨fun _ => rfl, fun first second => second.trans first⟩
  have maintained : ∀ (u : Engine P M) key routerId distance,
      read (u.maintainSource key routerId distance now) = read u := fun u _ _ _ => sources u _
  have written : ∀ name splitHorizon origins selected tombstones (u : Engine P M),
      read (updateTlvs now name splitHorizon origins selected tombstones u).1 = read u := by
    intro name splitHorizon origins selected tombstones u
    refine meets_andThen tlvs (meets_forEach tlvs fun entry _ v => ?_)
      (meets_andThen tlvs (meets_forEach tlvs fun route _ v => ?_)
        (meets_forEach tlvs fun key _ v => ?_)) u
    · simp only [advertiseOrigin]
      split
      · exact maintained v _ _ _
      · rfl
    · simp only [advertiseSelected]
      split_ifs
      · rfl
      · exact maintained v _ _ _
      · rfl
    · simp only [advertiseTombstone]
      split <;> rfl
  refine meets_forEach chains (fun name _ u => ?_) s
  simp only [sendUpdatesOn]
  cases u.interfaces.get? name with
  | none => rfl
  | some state =>
    simp only
    split_ifs
    · exact written _ _ _ _ _ u
    · exact (interfaces _ _).trans (written _ _ _ _ _ u)
    · exact written _ _ _ _ _ u

theorem sendUpdates_idle (only : Option RouteKey) (interface : Option InterfaceName)
    (timing : Option SendTiming) :
    Meets (Idle (P := P) (M := M)) (sendUpdates now only interface timing) :=
  sendUpdates_keeps pendingSeqno (fun _ _ => rfl) (fun _ _ => rfl) only interface timing

theorem Output.idle (output : Output false now s actions t) : Idle s actions t := by
  cases output with
  | said utterance =>
    cases utterance with
    | updates only interface timing => exact sendUpdates_idle only interface timing s
    | retries _ ticking => cases ticking
    | _ => rfl
  | _ => rfl

theorem outputs_idle (outputs : Steps (Output false now) s actions t) : Idle s actions t :=
  outputs.fold idle_chains Output.idle

/-! ## What a lost key asks for -/

variable {before : OrdMap RouteKey SelectedRoute} {target : NeighborKey}

theorem requestTargets_stored (found : (s.requestTargets order before).get? key = some target) :
    s.candidates.containsKey (key, target) = true := by
  have all : ∀ key target, (s.requestTargets order before).get? key = some target →
      s.candidates.containsKey (key, target) = true := by
    refine List.foldlRecOn (order.iter s.candidates.entries) _
      (motive := fun (targets : AssocMap RouteKey NeighborKey) => ∀ key target,
        targets.get? key = some target → s.candidates.containsKey (key, target) = true)
      (fun key target none => by cases none) fun targets held entry member => ?_
    intro key target found
    split at found
    · rw [AssocMap.get?_insert] at found
      split at found
      next same =>
        cases found
        subst same
        exact AssocMap.containsKey_iff.mpr ⟨entry.2,
          AssocMap.get?_eq_some_iff.mpr ((HashOrder.mem_iter order).mp member)⟩
      next => exact held key target found
    · exact held key target found
  exact all key target found

theorem requestTargets_starving (order : HashOrder) {entry : RouteKey × NeighborKey}
    {candidate : Candidate} (stored : s.candidates.get? entry = some candidate)
    (was : before.containsKey entry.1 = true) (gone : s.selected.containsKey entry.1 = false)
    (finite : candidate.metric < INFINITY) (starving : s.candidateIsFeasible candidate = false) :
    ∃ target, (s.requestTargets order before).get? entry.1 = some target := by
  have listed : (entry, candidate) ∈ order.iter s.candidates.entries :=
    (HashOrder.mem_iter order).mpr (AssocMap.get?_eq_some_iff.mp stored)
  obtain ⟨early, late, split⟩ := List.append_of_mem listed
  rw [← AssocMap.containsKey_iff, requestTargets, split, List.foldl_append, List.foldl_cons]
  -- Once a key has a target it keeps one.
  refine List.foldlRecOn late _ (motive := fun (targets : AssocMap RouteKey NeighborKey) =>
    targets.containsKey entry.1 = true) ?_ fun targets held other _ => ?_
  · generalize List.foldl _ _ early = targets
    cases known : targets.containsKey entry.1 with
    | true => simp [known]
    | false =>
      simp only [was, gone, finite, starving, known, Bool.not_false, decide_true, Bool.and_self,
        if_true, AssocMap.containsKey_insert, Bool.true_or]
  · split
    · rw [AssocMap.containsKey_insert, held, Bool.or_true]
    · exact held

variable {slot : RouteKey × RouterId} {pending : PendingSeqnoRequest}
  {targets : AssocMap RouteKey NeighborKey}

/-- A pending request is not overwritten by a loss. -/
theorem announceLoss_keeps {entry : RouteKey × SelectedRoute}
    (found : s.pendingSeqno.get? slot = some pending) :
    (announceLoss targets now entry s).1.pendingSeqno.get? slot = some pending := by
  simp only [announceLoss]
  split
  · exact found
  · split
    next nextHop _ =>
      split
      · exact found
      next free =>
        have apart : (entry.1, entry.2.routerId) ≠ slot := by
          rintro rfl
          exact free (AssocMap.containsKey_iff.mpr ⟨pending, found⟩)
        simp only [originateSeqnoRequest]
        rw [AssocMap.get?_insert_of_ne _ _ apart]
        exact found
    next => exact found

theorem announceLoss_apart {entry : RouteKey × SelectedRoute} (apart : entry.1 ≠ slot.1)
    (s : Engine P M) :
    (announceLoss targets now entry s).1.pendingSeqno.get? slot = s.pendingSeqno.get? slot := by
  have other : (entry.1, entry.2.routerId) ≠ slot := by
    rintro rfl
    exact apart rfl
  simp only [announceLoss]
  split
  · rfl
  · split
    · split
      · rfl
      · simp only [originateSeqnoRequest]
        rw [AssocMap.get?_insert_of_ne _ _ other]
        rfl
    · rfl

theorem announceLoss_selected (targets : AssocMap RouteKey NeighborKey)
    (entry : RouteKey × SelectedRoute) (s : Engine P M) :
    (announceLoss targets now entry s).1.selected = s.selected := by
  have announces : Announces (fun _ => True) now s _ _ :=
    announceLoss_announces targets entry trivial s
  exact announces.quiet.selected

/-- The loss loop asks the target of a lost key whose slot is free. -/
theorem announceLosses_ask (now : UInt64) {lost : SelectedRoute}
    (found : targets.get? key = some target) (entries : List (RouteKey × SelectedRoute))
    (distinct : (keysOf entries).Nodup) (listed : (key, lost) ∈ entries) (s : Engine P M)
    (gone : s.selected.containsKey key = false)
    (free : s.pendingSeqno.get? (key, lost.routerId) = none) :
    ∃ action ∈ (forEach entries (announceLoss targets now) s).2,
      action.asks key target = true := by
  induction entries generalizing s with
  | nil => cases listed
  | cons entry rest ih =>
    rw [keysOf_cons, List.nodup_cons] at distinct
    rcases List.mem_cons.mp listed with rfl | later
    · have request : ∃ action ∈ (announceLoss targets now (key, lost) s).2,
          action.asks key target = true := by
        have unasked : s.pendingSeqno.containsKey (key, lost.routerId) = false := by
          rw [AssocMap.containsKey, free]
          rfl
        simp only [announceLoss, gone, found, Bool.false_eq_true, if_false]
        rw [if_neg (by simpa [repeatAdvertisement] using unasked)]
        exact ⟨_, List.mem_append_right _ (List.mem_singleton.mpr rfl),
          seqnoRequestAction_asks _ _ _ _ _ _⟩
      obtain ⟨action, member, asks⟩ := request
      exact ⟨action, List.mem_append_left _ member, asks⟩
    · have apart : entry.1 ≠ key := by
        rintro rfl
        exact distinct.1 (List.mem_map.mpr ⟨_, later, rfl⟩)
      obtain ⟨action, member, asks⟩ := ih distinct.2 later (announceLoss targets now entry s).1
        (by rw [announceLoss_selected, gone])
        (by rw [announceLoss_apart apart, free])
      exact ⟨action, List.mem_append_right _ member, asks⟩

theorem announceChange_idle (route : SelectedRoute) :
    Meets (Idle (P := P) (M := M)) (announceChange now route) := by
  intro s
  simp only [Idle, announceChange]
  split <;> rfl

theorem selectedDelta_recovers (order : HashOrder) (now : UInt64) {lost : SelectedRoute}
    (was : before.get? key = some lost) (gone : s.selected.containsKey key = false)
    {candidate : Candidate} (stored : s.candidates.get? (key, neighbour) = some candidate)
    (finite : candidate.metric < INFINITY) (starving : s.candidateIsFeasible candidate = false) :
    (∃ target, s.candidates.containsKey (key, target) = true ∧
        ∃ action ∈ (selectedDelta order before now s).2, action.asks key target = true) ∨
      ∃ pending, s.pendingSeqno.get? (key, lost.routerId) = some pending ∧
        (selectedDelta order before now s).1.pendingSeqno.get? (key, lost.routerId) =
          some pending := by
  cases slot : s.pendingSeqno.get? (key, lost.routerId) with
  | none =>
    left
    obtain ⟨target, found⟩ := requestTargets_starving order stored
      (OrdMap.containsKey_iff.mpr ⟨lost, was⟩) gone finite starving
    obtain ⟨action, member, asks⟩ := announceLosses_ask now found before.entries
      before.ascending.distinct (OrdMap.get?_eq_some_iff.mp was) s gone slot
    exact ⟨target, requestTargets_stored found, action, List.mem_append_left _ member, asks⟩
  | some pending =>
    right
    have chains : Chains fun (u : Engine P M) (_ : List Action) v =>
        u.pendingSeqno.get? (key, lost.routerId) = some pending →
          v.pendingSeqno.get? (key, lost.routerId) = some pending :=
      ⟨fun _ held => held, fun first second held => second (first held)⟩
    refine ⟨pending, rfl, meets_andThen chains
      (meets_forEach chains fun entry _ u => announceLoss_keeps)
      (meets_forEach chains fun route _ u held => ?_) s slot⟩
    rw [announceChange_idle route u]
    exact held

/-- Reselection that loses a key with a finite candidate asks a known neighbour, or
leaves a pending request as it is. -/
theorem reselect_recovers (order : HashOrder) (now : UInt64) (accounted : Accounted s)
    {lost : SelectedRoute} (was : s.selected.get? key = some lost)
    (gone : (reselect order now s).1.selected.get? key = none) {candidate : Candidate}
    (stored : s.candidates.get? (key, neighbour) = some candidate)
    (finite : candidate.metric < INFINITY) :
    (∃ target, s.neighbours.containsKey target = true ∧
        ∃ action ∈ (reselect order now s).2, action.asks key target = true) ∨
      ∃ pending, s.pendingSeqno.get? (key, lost.routerId) = some pending ∧
        (reselect order now s).1.pendingSeqno.get? (key, lost.routerId) = some pending := by
  rw [reselect_selected] at gone
  have changed : (s.reselectState order now).selected ≠ s.selected ∨
      (s.reselectState order now).tombstones.keys ≠ s.tombstones.keys := by
    left
    intro same
    rw [same, was] at gone
    cases gone
  -- A feasible candidate would have been selected.
  have starving : s.candidateIsFeasible candidate = false := by
    by_contra feasible
    obtain ⟨route, selected⟩ := reselectState_complete order now s
      (AssocMap.mem_values_iff.mpr ⟨_, stored⟩) (show s.usable candidate = true by
        simp [usable, finite, feasible])
    rw [(accounted.named _ _ stored).1, gone] at selected
    cases selected
  have named := (accounted.named _ _ stored).1
  have still : ({ s.reselectState order now with
      generation := s.generation + 1 } : Engine P M).candidateIsFeasible candidate = false := by
    rw [candidateIsFeasible_unselected (by rw [named]; exact gone)]
    exact (Bool.or_eq_false_iff.mp starving).2
  have outcome : reselect order now s = andThen routeSnapshot
      (selectedDelta order s.selected now) (s.reselectState order now) := if_pos changed
  rw [outcome]
  rcases selectedDelta_recovers (s := { s.reselectState order now with
      generation := s.generation + 1 }) order now was (OrdMap.containsKey_eq_false.mpr gone) stored
    finite still with ⟨target, known, action, member, asks⟩ | ⟨pending, found, kept⟩
  · exact Or.inl ⟨target, accounted.known _ known, action, List.mem_cons_of_mem _ member, asks⟩
  · exact Or.inr ⟨pending, found, kept⟩

/-! ## Requests made while a packet is read -/

theorem updateActionToCandidate_idle (key : RouteKey) (routerId : RouterId) (seqno metric : UInt16)
    (destination : NeighborKey) :
    Meets (Idle (P := P) (M := M))
      (updateActionToCandidate key routerId seqno metric destination now) := by
  intro s
  simp only [Idle, updateActionToCandidate]
  split <;> rfl

theorem replyToRouteRequest_idle (key : RouteKey) (destination : NeighborKey) :
    Meets (Idle (P := P) (M := M)) (replyToRouteRequest key destination now) := by
  intro s
  unfold replyToRouteRequest
  split
  · exact updateActionToCandidate_idle _ _ _ _ _ s
  · split
    · exact updateActionToCandidate_idle _ _ _ _ _ s
    · rfl

theorem forwardingTarget_stored {requester : NeighborKey} {routerId : RouterId}
    (found : s.forwardingTarget order requester key routerId = some target) :
    s.candidates.containsKey (key, target) = true := by
  unfold forwardingTarget at found
  split at found
  · cases found
  next first rest listed =>
    have member : ∀ entry ∈ first :: rest, entry ∈ s.candidates.entries ∧ entry.1.1 = key := by
      intro entry inside
      rw [← listed] at inside
      obtain ⟨stored, fits⟩ := List.mem_filter.mp inside
      simp only [Bool.and_eq_true, decide_eq_true_eq] at fits
      exact ⟨(HashOrder.mem_iter order).mp stored, fits.1.1⟩
    have least : ∀ least ∈ first :: rest, (rest.foldl
        (fun least next =>
          if rankBelow (s.forwardingRank next.2) (s.forwardingRank least.2) then next else least)
        least) ∈ first :: rest := fun least inside =>
      List.foldlRecOn rest _ (motive := fun (least : (RouteKey × NeighborKey) × Candidate) =>
        least ∈ first :: rest) inside fun least held next later => by
          split
          · exact List.mem_cons_of_mem _ later
          · exact held
    obtain ⟨stored, named⟩ := member _ (least first List.mem_cons_self)
    cases found
    rw [← named]
    exact AssocMap.containsKey_iff.mpr ⟨_, AssocMap.get?_eq_some_iff.mpr stored⟩

theorem answerAll_pending {update : FiniteUpdate} {metric : UInt16}
    {entries : List ((RouteKey × RouterId) × PendingSeqnoRequest)}
    (found : (forEach entries (answerPending update metric now) s).1.pendingSeqno.get? slot =
      some pending) : s.pendingSeqno.get? slot = some pending := by
  have chains : Chains fun (u : Engine P M) (_ : List Action) v =>
      v.pendingSeqno.get? slot = some pending → u.pendingSeqno.get? slot = some pending :=
    ⟨fun _ held => held, fun first second held => first (second held)⟩
  refine meets_forEach chains (fun entry _ u held => ?_) s found
  rw [pendingSeqno_answerPending, AssocMap.get?_remove] at held
  split at held
  · cases held
  · exact held

theorem settleRequests_pending {finite : FiniteUpdate} {metric : UInt16}
    (found : (settleRequests order neighbour finite metric now s).1.pendingSeqno.get? slot =
      some pending) :
    s.pendingSeqno.get? slot = some pending ∨
      pending.nextHop = neighbour ∧ pending.requester = none := by
  unfold settleRequests at found
  split_ifs at found
  · exact Or.inl (answerAll_pending found)
  · exact Or.inl found
  · split at found
    · exact Or.inl found
    next source _ =>
      simp only [recoveryRequest, originateSeqnoRequest, AssocMap.get?_insert] at found
      split at found
      · cases found
        exact Or.inr ⟨rfl, rfl⟩
      · exact Or.inl found
  · exact Or.inl found

/-- Reading a packet forgets nobody, and a request it adds goes to a known neighbour. -/
structure Asks (s t : Engine P M) : Prop where
  known : ∀ neighbour, s.neighbours.containsKey neighbour = true →
    t.neighbours.containsKey neighbour = true
  pending : ∀ slot pending, t.pendingSeqno.get? slot = some pending →
    s.pendingSeqno.get? slot = some pending ∨ t.neighbours.containsKey pending.nextHop = true

theorem Asks.chains : Chains fun (s : Engine P M) (_ : List Action) t =>
    Accounted s → Accounted t ∧ Asks s t where
  refl s accounted := ⟨accounted, fun _ known => known, fun _ _ => Or.inl⟩
  trans := by
    intro s middle t first second before after accounted
    obtain ⟨between, early⟩ := before accounted
    obtain ⟨final, late⟩ := after between
    refine ⟨final, fun neighbour known => late.known _ (early.known _ known), ?_⟩
    intro slot pending found
    rcases late.pending slot pending found with earlier | known
    · exact (early.pending slot pending earlier).imp_right (late.known _)
    · exact Or.inr known

section Metric
variable [NeighborMetric M]

/-- A request that an Update adds goes to its sender, who is known, for nobody else. -/
theorem receiveUpdate_pending {update : ResolvedUpdate}
    (found : (s.receiveUpdate order neighbour update now).engine.pendingSeqno.get? slot =
      some pending) :
    s.pendingSeqno.get? slot = some pending ∨
      s.neighbours.containsKey pending.nextHop = true ∧ pending.requester = none := by
  by_cases enters : ∃ finite, resolvedFinite update = some finite ∧ s.admits neighbour finite = true
  · obtain ⟨finite, resolved, admitted⟩ := enters
    obtain ⟨state, known, received⟩ := receiveUpdate_admitted order resolved admitted
    have sender : s.neighbours.containsKey neighbour = true :=
      AssocMap.containsKey_iff.mpr ⟨state, known⟩
    rw [received, admitUpdate_eq] at found
    split at found
    · split at found
      · exact Or.inl found
      · simp only [recoveryRequest, originateSeqnoRequest, AssocMap.get?_insert] at found
        split at found
        · cases found
          exact Or.inr ⟨sender, rfl⟩
        · exact Or.inl found
    · rcases settleRequests_pending found with kept | ⟨toSender, unasked⟩
      · exact Or.inl kept
      · exact Or.inr ⟨toSender ▸ sender, unasked⟩
  · rw [(receiveUpdate_refused order s fun finite resolved => by
      rw [← Bool.not_eq_true]
      exact fun admitted => enters ⟨finite, resolved, admitted⟩).1] at found
    exact Or.inl found

/-- A request that a TLV adds goes to a known neighbour or one with a candidate, for the
sender if for anybody. -/
theorem receiveTlv_pending {tlv : Tlv} {state : ReceiveState P M}
    (found : (receiveTlv order neighbour now tlv state).1.engine.pendingSeqno.get? slot =
      some pending) :
    state.engine.pendingSeqno.get? slot = some pending ∨
      (state.engine.neighbours.containsKey pending.nextHop = true ∨
        ∃ key, state.engine.candidates.containsKey (key, pending.nextHop) = true) ∧
        ∀ requester, pending.requester = some requester → requester = neighbour := by
  have idly : ∀ {reply : Engine P M × List Action} {added : Prop},
      Idle state.engine reply.2 reply.1 → reply.1.pendingSeqno.get? slot = some pending →
        state.engine.pendingSeqno.get? slot = some pending ∨ added :=
    fun idle found => Or.inl (idle ▸ found)
  cases tlv with
  | update update =>
    refine (receiveUpdate_pending found).imp_right fun added => ⟨Or.inl added.1, ?_⟩
    rw [added.2]
    exact fun requester asked => by cases asked
  | routeRequest key subTlvs =>
    cases key with
    | some key => exact idly (replyToRouteRequest_idle key neighbour state.engine) found
    | none =>
      simp only [receiveTlv] at found
      split at found
      · exact idly (sendUpdates_idle none (some neighbour.interface) _ state.engine) found
      · exact Or.inl found
  | seqnoRequest key seqno hopCount routerId subTlvs =>
    simp only [receiveTlv, handleSeqnoRequest] at found
    split at found
    · exact idly (replyToRouteRequest_idle key neighbour state.engine) found
    · split at found
      next route _ =>
        exact idly (updateActionToCandidate_idle _ _ _ _ neighbour state.engine) found
      next =>
        split at found
        next origin _ =>
          have idle : Meets (Idle (P := P) (M := M))
              (answerOwnRequest key seqno origin now) :=
            meets_andThen idle_chains
              (meets_when idle_chains fun _ _ => rfl) (sendUpdates_idle _ _ _)
          exact idly (idle state.engine) found
        next =>
          unfold forwardRequest at found
          split_ifs at found
          · exact Or.inl found
          · exact Or.inl found
          · split at found
            · exact Or.inl found
            next target reachable =>
              simp only [originateSeqnoRequest, AssocMap.get?_insert] at found
              split at found
              · cases found
                refine Or.inr ⟨Or.inr ⟨key, forwardingTarget_stored reachable⟩, ?_⟩
                exact fun requester asked => (Option.some.inj asked).symm
              · exact Or.inl found
  | _ => exact Or.inl found

theorem Processes.asks (processes : Processes neighbour now tlvs s actions t)
    (accounted : Accounted s) : Accounted t ∧ Asks s t := by
  refine processes.fold Asks.chains (fun {tlv} _ order state held => ?_) accounted
  refine ⟨receiveTlv_accounted order neighbour tlv state held, fun other => ?_, ?_⟩
  · rw [known_receiveTlv]
    exact id
  · intro slot pending found
    rw [known_receiveTlv]
    refine (receiveTlv_pending found).imp_right fun added => added.1.elim id ?_
    exact fun ⟨_, stored⟩ => held.known _ stored

end Metric

/-! ## Retries -/

/-- A request that is not given up keeps its next hop over the retries. -/
theorem retryRequests_keeps (order : HashOrder) (found : s.pendingSeqno.get? slot = some pending)
    (persists : now ≥ pending.nextRetryMs → pending.retriesLeft ≠ 0) :
    ∃ later, (retryRequests order now s).1.pendingSeqno.get? slot = some later ∧
      later.nextHop = pending.nextHop := by
  have chains : Chains fun (u : Engine P M) (_ : List Action) v =>
      (∃ later, u.pendingSeqno.get? slot = some later ∧ later.nextHop = pending.nextHop) →
        ∃ later, v.pendingSeqno.get? slot = some later ∧ later.nextHop = pending.nextHop :=
    ⟨fun _ held => held, fun first second held => second (first held)⟩
  refine meets_forEach chains (fun entry member u held => ?_) s ⟨pending, found, rfl⟩
  obtain ⟨listed, due⟩ := List.mem_filter.mp member
  have stored := AssocMap.get?_eq_some_iff.mpr ((HashOrder.mem_iter order).mp listed)
  obtain ⟨later, here, same⟩ := held
  simp only [retryRequest]
  split
  next last =>
    -- The given-up entry is another one.
    have apart : slot ≠ entry.1 := by
      rintro rfl
      cases found.symm.trans stored
      exact persists (of_decide_eq_true due) last
    exact ⟨later, by rw [AssocMap.get?_remove, if_neg apart]; exact here, same⟩
  next =>
    simp only [AssocMap.get?_modify, here, Option.map_some, Option.some.injEq, exists_eq_left']
    split <;> exact same

/-! ## Events -/

/-- The event asks a known neighbour for the key, or a request to one is pending. -/
def Recovers (key : RouteKey) (routerId : RouterId) (actions : List Action) (t : Engine P M) :
    Prop :=
  (∃ hop, t.neighbours.containsKey hop = true ∧
      ∃ action ∈ actions, action.asks key hop = true) ∨
    ∃ pending, t.pendingSeqno.get? (key, routerId) = some pending ∧
      t.neighbours.containsKey pending.nextHop = true

theorem Recovers.mono {routerId : RouterId} {more : List Action}
    (recovers : Recovers key routerId actions t) (listed : ∀ action ∈ actions, action ∈ more) :
    Recovers key routerId more t := by
  rcases recovers with ⟨hop, known, action, member, asks⟩ | pending
  · exact Or.inl ⟨hop, known, action, listed action member, asks⟩
  · exact Or.inr pending

theorem Output.known {ticks : Bool} (output : Output ticks now s actions t)
    (neighbour : NeighborKey) :
    t.neighbours.containsKey neighbour = s.neighbours.containsKey neighbour := by
  cases output.coda with
  | announced announces =>
    rw [← containsKey_adjacency, announces.quiet.adjacencies, containsKey_adjacency]
  | reported => rfl
  | held _ _ _ => rfl
  | lifted _ _ => rfl

theorem outputs_known {ticks : Bool} (outputs : Steps (Output ticks now) s actions t)
    (neighbour : NeighborKey) :
    t.neighbours.containsKey neighbour = s.neighbours.containsKey neighbour := by
  induction outputs with
  | refl s => rfl
  | step taken _ ih => exact ih.trans (taken.known neighbour)

theorem Reselects.known (reselects : Reselects now s actions t) (neighbour : NeighborKey) :
    t.neighbours.containsKey neighbour = s.neighbours.containsKey neighbour := by
  rw [← containsKey_adjacency, reselects.tables.adjacencies, containsKey_adjacency]

section Lost
variable {key : RouteKey} {lost : SelectedRoute} {neighbour : NeighborKey} {candidate : Candidate}

theorem Reselects.recovers {middle chosen : Engine P M} {delta rest : List Action}
    (accounted : Accounted middle) (was : middle.selected.get? key = some lost)
    (reselects : Reselects now middle delta chosen)
    (outputs : Steps (Output false now) chosen rest t) (gone : t.selected.get? key = none)
    (stored : t.candidates.get? (key, neighbour) = some candidate)
    (finite : candidate.metric < INFINITY) :
    (∃ hop, t.neighbours.containsKey hop = true ∧
        ∃ action ∈ delta, action.asks key hop = true) ∨
      ∃ pending, middle.pendingSeqno.get? (key, lost.routerId) = some pending ∧
        t.pendingSeqno.get? (key, lost.routerId) = some pending := by
  have routes := outputs_sameRoutes outputs
  have known : ∀ hop, t.neighbours.containsKey hop = middle.neighbours.containsKey hop :=
    fun hop => (outputs_known outputs hop).trans (reselects.known hop)
  rw [routes.candidates, reselects.tables.candidates] at stored
  rw [routes.selected] at gone
  cases reselects with
  | skipped =>
    rw [gone] at was
    cases was
  | taken order =>
    rcases reselect_recovers order now accounted was gone stored finite with
      ⟨target, there, asked⟩ | ⟨pending, found, kept⟩
    · exact Or.inl ⟨target, (known target).trans there, asked⟩
    · refine Or.inr ⟨pending, found, ?_⟩
      rw [outputs_idle outputs]
      exact kept

section Tick
variable [NeighborMetric M] [MetricProfile P M]

omit [MetricProfile P M] in
theorem neighbours_recomputeEach (keys : List NeighborKey) (s : Engine P M) :
    (s.recomputeEach keys).1.neighbours = s.neighbours :=
  List.foldlRecOn keys _
    (motive := fun (state : Engine P M × Bool) => state.1.neighbours = s.neighbours) rfl
    fun _ held _ _ => held

omit [MetricProfile P M] in
/-- Whoever is not silent after aging stays. -/
theorem known_ageState (order : HashOrder) (s : Engine P M) (hop : NeighborKey) :
    (s.ageState order now).engine.neighbours.containsKey hop =
      (s.neighbours.get? hop).any fun state => !(state.age now).1.silent := by
  rw [ageState_engine, neighbours_recomputeEach]
  show (AssocMap.mapValues _ _).containsKey hop = _
  rw [AssocMap.containsKey_mapValues, expireIhus, AssocMap.containsKey_mapValues,
    dropSilentNeighbours, AssocMap.containsKey, AssocMap.get?_retain, ageNeighbours,
    AssocMap.get?_mapValues]
  cases s.neighbours.get? hop with
  | none => rfl
  | some state => cases silent : (state.age now).1.silent <;> simp [Option.filter, silent]

/-- A tick recovers when no request for the lost key points to a neighbour that goes
silent or is given up. -/
theorem tick_recovers (order : HashOrder) (accounted : Accounted s)
    (was : s.selected.get? key = some lost) (gone : (tick order now s).1.selected.get? key = none)
    (stored : (tick order now s).1.candidates.get? (key, neighbour) = some candidate)
    (finite : candidate.metric < INFINITY)
    (alive : ∀ pending, s.pendingSeqno.get? (key, lost.routerId) = some pending →
      ((s.neighbours.get? pending.nextHop).any fun state => !(state.age now).1.silent) = true ∧
        (now ≥ pending.nextRetryMs → pending.retriesLeft ≠ 0)) :
    Recovers key lost.routerId (tick order now s).2 (tick order now s).1 := by
  obtain ⟨delta, chosen, report, reselects, reports, settled⟩ := tickSettled_parts order now s
  have concluded : Steps (Output true now) (s.tickSettled order now).1 _
    (tick order now s).1 := utterances_outputs (tickOutput_utters order s _)
  have reported : Steps (Output false now) chosen report (s.tickSettled order now).1 :=
    conclusions_outputs (reports false)
  have routes := outputs_sameRoutes concluded
  rw [routes.selected] at gone
  rw [routes.candidates] at stored
  have aged : Accounted (s.ageState order now).engine :=
    (ageState_prelude order s).fold (keeps_chains Accounted)
      (moves_accounted (.tick now)).prelude accounted
  have before : (s.ageState order now).engine.selected.get? key = some lost := by
    rw [(ageState_sensing order now s).selected]
    exact was
  rcases reselects.recovers aged before reported gone stored finite with
    ⟨hop, known, action, member, asks⟩ | ⟨pending, found, kept⟩
  · refine Or.inl ⟨hop, (outputs_known concluded hop).trans known, action, ?_, asks⟩
    have inside : action ∈ (s.tickSettled order now).2 := by
      rw [settled]
      exact List.mem_append_left _ member
    exact List.mem_append_left _ inside
  · rw [(ageState_sensing order now s).pendingSeqno] at found
    obtain ⟨awake, persists⟩ := alive pending found
    obtain ⟨later, there, same⟩ := retryRequests_keeps order kept persists
    have periodic : Steps (Output false now)
      (retryRequests order now (s.tickSettled order now).1).1 _ (tick order now s).1 :=
      utterances_outputs (tickPeriodic_utters order _)
    refine Or.inr ⟨later, ?_, ?_⟩
    · rw [outputs_idle periodic]
      exact there
    · rw [same, outputs_known concluded, outputs_known reported, reselects.known, known_ageState]
      exact awake

end Tick

/-- The same when the requests for the lost key point to known neighbours. -/
theorem Reselects.recovered {middle chosen : Engine P M} {delta rest : List Action}
    (accounted : Accounted middle) (was : middle.selected.get? key = some lost)
    (reselects : Reselects now middle delta chosen)
    (outputs : Steps (Output false now) chosen rest t)
    (listed : ∀ action ∈ delta, action ∈ actions) (gone : t.selected.get? key = none)
    (stored : t.candidates.get? (key, neighbour) = some candidate)
    (finite : candidate.metric < INFINITY)
    (alive : ∀ pending, middle.pendingSeqno.get? (key, lost.routerId) = some pending →
      middle.neighbours.containsKey pending.nextHop = true) :
    Recovers key lost.routerId actions t := by
  rcases reselects.recovers accounted was outputs gone stored finite with
    ⟨hop, known, action, member, asks⟩ | ⟨pending, found, kept⟩
  · exact Or.inl ⟨hop, known, action, listed action member, asks⟩
  · refine Or.inr ⟨pending, kept, ?_⟩
    rw [outputs_known outputs, reselects.known]
    exact alive pending found

theorem Edit.idle {before : Engine P M} (edit : Edit before event s actions t) :
    Idle s actions t ∧ t.neighbours = s.neighbours := by
  cases edit with
  | _ => exact ⟨rfl, rfl⟩

/-- An edit of the origins: nobody is forgotten and no request is touched before
reselection. -/
theorem Phase.edit_recovers {before : Engine P M}
    (phase : Phase (Edit before event) false now s actions t) (accounted : Accounted s)
    (was : s.selected.get? key = some lost) (gone : t.selected.get? key = none)
    (stored : t.candidates.get? (key, neighbour) = some candidate)
    (finite : candidate.metric < INFINITY)
    (alive : ∀ pending, s.pendingSeqno.get? (key, lost.routerId) = some pending →
      s.neighbours.containsKey pending.nextHop = true) :
    Recovers key lost.routerId actions t := by
  obtain @⟨middle, chosen, _, first, second, third, prelude, reselects, coda⟩ := phase
  have chains : Chains fun (u : Engine P M) (_ : List Action) v =>
      v.selected = u.selected ∧ v.pendingSeqno = u.pendingSeqno ∧ v.neighbours = u.neighbours ∧
        (Accounted u → Accounted v) :=
    ⟨fun _ => ⟨rfl, rfl, rfl, id⟩, fun first second => ⟨second.1.trans first.1,
      second.2.1.trans first.2.1, second.2.2.1.trans first.2.2.1, second.2.2.2 ∘ first.2.2.2⟩⟩
  obtain ⟨selected, pendings, neighbours, keeps⟩ := prelude.fold chains fun edit =>
    ⟨edit.selected, edit.idle.1, edit.idle.2, edit.accounted⟩
  refine reselects.recovered (keeps accounted) (selected ▸ was) (conclusions_outputs coda)
    (fun action member => List.mem_append_left _ (List.mem_append_right _ member)) gone stored
    finite ?_
  rw [pendings, neighbours]
  exact alive

section Events
variable [NeighborMetric M] [MetricProfile P M]

theorem observations_ask {sender : NeighborKey}
    (observes : Steps (Observation sender now tlvs) s actions t) :
    t.pendingSeqno = s.pendingSeqno ∧ ∀ hop, s.neighbours.containsKey hop = true →
      t.neighbours.containsKey hop = true := by
  induction observes with
  | refl s => exact ⟨rfl, fun _ known => known⟩
  | step taken _ ih =>
    cases taken with
    | refused _ => exact ih
    | greeted _ _ _ _ =>
      refine ⟨ih.1, fun hop known => ih.2 hop ?_⟩
      rw [AssocMap.containsKey_insert, known, Bool.or_true]
    | sampled _ =>
      exact ⟨ih.1, fun hop known => ih.2 hop ((AssocMap.containsKey_modify _ _ _ _).trans known)⟩
    | confirmed _ =>
      exact ⟨ih.1, fun hop known => ih.2 hop ((AssocMap.containsKey_modify _ _ _ _).trans known)⟩
    | recomputed => exact ih

theorem receive_recovers {sender : NeighborKey} (phase : PacketPhase sender now tlvs s actions t)
    (accounted : Accounted s) (was : s.selected.get? key = some lost)
    (gone : t.selected.get? key = none)
    (stored : t.candidates.get? (key, neighbour) = some candidate)
    (finite : candidate.metric < INFINITY)
    (alive : ∀ pending, s.pendingSeqno.get? (key, lost.routerId) = some pending →
      s.neighbours.containsKey pending.nextHop = true) :
    Recovers key lost.routerId actions t := by
  cases phase with
  | dropped rejections =>
    cases was.symm.trans gone
  | @processed heard greeted middle _ _ greeting replies delta changes observes utters _ processes
      reselects announces =>
      obtain ⟨unasked, kept⟩ := observations_ask observes
      have greets := utterances_outputs utters
      have met : Accounted greeted := (greets.fold (keeps_chains Accounted)
        (moves_accounted (.withdraw key now)).output)
          (observes.fold (keeps_chains Accounted) Observation.accounted accounted)
      obtain ⟨settled, asks⟩ := processes.asks met
      have before : middle.selected.get? key = some lost := by
        rw [processes.receives.selected, (outputs_sameRoutes greets).selected,
          (observations_senses observes).selected]
        exact was
      refine reselects.recovered settled before (utterances_outputs announces)
        (fun action member => ?_) gone stored finite fun pending found => ?_
      · exact List.mem_append_left _ (List.mem_append_right _ member)
      · rcases asks.pending _ pending found with earlier | known
        · rw [outputs_idle greets, unasked] at earlier
          refine asks.known _ ?_
          rw [outputs_known greets]
          exact kept _ (alive pending earlier)
        · exact known

theorem interfaceUp_recovers (order : HashOrder) (interface : InterfaceName)
    (localAddresses : List IpAddr) (policy : InterfacePolicy P) (accounted : Accounted s)
    (was : s.selected.get? key = some lost)
    (gone : (interfaceUp order interface localAddresses policy now s).1.selected.get? key = none)
    (stored : (interfaceUp order interface localAddresses policy now s).1.candidates.get?
      (key, neighbour) = some candidate) (finite : candidate.metric < INFINITY)
    (alive : ∀ pending, s.pendingSeqno.get? (key, lost.routerId) = some pending →
      ((s.neighbours.get? pending.nextHop).any fun state => !(state.age now).1.silent) = true ∧
        (now ≥ pending.nextRetryMs → pending.retriesLeft ≠ 0)) :
    Recovers key lost.routerId (interfaceUp order interface localAddresses policy now s).2
      (interfaceUp order interface localAddresses policy now s).1 := by
  have same : (s.attachInterface interface localAddresses policy now).selected = s.selected ∧
      (s.attachInterface interface localAddresses policy now).pendingSeqno = s.pendingSeqno ∧
      (s.attachInterface interface localAddresses policy now).neighbours = s.neighbours := by
    unfold attachInterface
    split <;> exact ⟨rfl, rfl, rfl⟩
  have attached : Accounted (s.attachInterface interface localAddresses policy now) :=
    Reconfiguration.accounted (.attached interface localAddresses policy) accounted
  simp only [interfaceUp, andThen_apply, update_apply, emit_apply,
    List.nil_append] at gone stored ⊢
  refine (tick_recovers order attached (same.1 ▸ was) gone stored finite ?_).mono
    fun action member => List.mem_append_left _ member
  rw [same.2.1, same.2.2]
  exact alive

/-- A policy that keeps the transport and the metrics is installed and announced ahead
of the tick. -/
theorem policyChanged_recovers (order : HashOrder) {interface : InterfaceName}
    {policy : InterfacePolicy P} {state : InterfaceState P}
    (here : s.interfaces.get? interface = some state)
    (same : state.policy.controlTransport = policy.controlTransport) (accounted : Accounted s)
    (was : s.selected.get? key = some lost)
    (gone : (interfacePolicyChanged order interface policy false now s).1.selected.get? key = none)
    (stored : (interfacePolicyChanged order interface policy false now s).1.candidates.get?
      (key, neighbour) = some candidate) (finite : candidate.metric < INFINITY)
    (alive : ∀ pending, s.pendingSeqno.get? (key, lost.routerId) = some pending →
      ((s.neighbours.get? pending.nextHop).any fun state => !(state.age now).1.silent) = true ∧
        (now ≥ pending.nextRetryMs → pending.retriesLeft ≠ 0)) :
    Recovers key lost.routerId (interfacePolicyChanged order interface policy false now s).2
      (interfacePolicyChanged order interface policy false now s).1 := by
  have plain : interfacePolicyChanged order interface policy false now s =
      andThen (sendUpdates now none (some interface) (some (SendTiming.urgent now)))
        (tick order now) (s.installPolicy interface policy now) := by
    simp [interfacePolicyChanged, here, same, policyChangedBeforeTick, when]
  rw [plain, andThen_apply] at gone stored ⊢
  have sent : Meets (Announces (P := P) (M := M) nothingLost now)
      (sendUpdates now none (some interface) (some (SendTiming.urgent now))) :=
    sendUpdates_announces _ _ _
  have ready := (sent _).quiet.accounted (installPolicy_accounted interface policy now accounted)
  have before : (sendUpdates now none (some interface) (some (SendTiming.urgent now))
      (s.installPolicy interface policy now)).1.selected.get? key = some lost := by
    rw [(sent _).quiet.selected]
    exact was
  refine (tick_recovers order ready before gone stored finite ?_).mono
    fun action member => List.mem_append_right _ member
  rw [sendUpdates_keeps pendingSeqno (fun _ _ => rfl) (fun _ _ => rfl),
    sendUpdates_keeps neighbours (fun _ _ => rfl) (fun _ _ => rfl)]
  exact alive

omit [NeighborMetric M] [MetricProfile P M] in
theorem interfaceDown_recovers (order : HashOrder) (interface : InterfaceName)
    (accounted : Accounted s) (was : s.selected.get? key = some lost)
    (gone : (interfaceDown order interface now s).1.selected.get? key = none)
    (stored : (interfaceDown order interface now s).1.candidates.get? (key, neighbour) =
      some candidate) (finite : candidate.metric < INFINITY)
    (alive : ∀ pending, s.pendingSeqno.get? (key, lost.routerId) = some pending →
      s.neighbours.containsKey pending.nextHop = true ∧ pending.nextHop.interface ≠ interface) :
    Recovers key lost.routerId (interfaceDown order interface now s).2
      (interfaceDown order interface now s).1 := by
  have reselects : Reselects now (s.removeInterface interface)
      (interfaceDown order interface now s).2 (interfaceDown order interface now s).1 :=
    .taken order
  refine reselects.recovered (removeInterface_accounted interface accounted) was (.refl _)
    (fun _ member => member) gone stored finite fun pending found => ?_
  obtain ⟨known, elsewhere⟩ := alive pending found
  obtain ⟨state, here⟩ := AssocMap.containsKey_iff.mp known
  refine AssocMap.containsKey_iff.mpr ⟨state, ?_⟩
  simp [removeInterface, detachNeighbours, here, Option.filter, elsewhere]

omit [NeighborMetric M] [MetricProfile P M] in
theorem replaceRoutePolicy_recovers (order : HashOrder) (policy : RoutePolicy)
    (accounted : Accounted s) (was : s.selected.get? key = some lost)
    (gone : (replaceRoutePolicy order policy now s).1.selected.get? key = none)
    (stored : (replaceRoutePolicy order policy now s).1.candidates.get? (key, neighbour) =
      some candidate) (finite : candidate.metric < INFINITY)
    (alive : ∀ pending, s.pendingSeqno.get? (key, lost.routerId) = some pending →
      s.neighbours.containsKey pending.nextHop = true) :
    Recovers key lost.routerId (replaceRoutePolicy order policy now s).2
      (replaceRoutePolicy order policy now s).1 := by
  have parts : replaceRoutePolicy order policy now s =
      ((policyOutput now (reselect order now (s.applyRoutePolicy policy)).1).1,
        [.invalidatePendingSends] ++ ((reselect order now (s.applyRoutePolicy policy)).2 ++
          (policyOutput now (reselect order now (s.applyRoutePolicy policy)).1).2)) := by
    simp only [replaceRoutePolicy, policyOutput, andThen_apply, update_apply,
      emit_apply, List.nil_append]
  rw [parts] at gone stored ⊢
  have reselects : Reselects now (s.applyRoutePolicy policy) _ _ := .taken order
  refine reselects.recovered (applyRoutePolicy_accounted policy accounted) was
    (utterances_outputs (policyOutput_utters _)) (fun action member => ?_) gone stored finite
    fun pending found => ?_
  · exact List.mem_append_right _ (List.mem_append_left _ member)
  · simp only [applyRoutePolicy, AssocMap.get?_retain, Option.filter_eq_some_iff] at found
    exact (AssocMap.containsKey_mapValues _ _ _).trans (alive pending found.1)

end Events

end Lost

/-! ## When recovery is certain -/

section Guard
variable [NeighborMetric M]

/-- The event makes the engine forget the neighbour: its interface goes down, or a tick
finds it silent. -/
def forgets (s : Engine P M) (event : Event P) (hop : NeighborKey) : Bool :=
  match event with
  | .interfaceDown interface _ => decide (hop.interface = interface)
  | _ => event.ticks && (s.neighbours.get? hop).any fun state => (state.age event.now).1.silent

/-- A changed interface policy that reselects in its tick alone. -/
def reselectsOnce (s : Engine P M) (event : Event P) : Bool :=
  match event with
  | .interfacePolicyChanged interface policy resetMetric _ =>
    !resetMetric && (s.interfaces.get? interface).all fun state =>
      state.policy.controlTransport == policy.controlTransport
  | _ => true

def givesUp (event : Event P) (pending : PendingSeqnoRequest) : Bool :=
  event.ticks && decide (event.now ≥ pending.nextRetryMs) && pending.retriesLeft == 0

/-- The request pending for the selected route of the key, if any, goes to a neighbour that
the event leaves known, and is not given up by it. -/
def recoverable (key : RouteKey) (s : Engine P M) (event : Event P) : Bool :=
  (s.selected.get? key).all fun route => s.reselectsOnce event &&
    (s.pendingSeqno.get? (key, route.routerId)).all fun pending =>
      s.neighbours.containsKey pending.nextHop && !s.forgets event pending.nextHop &&
        !givesUp event pending

theorem recoverable_pending (recoverable : s.recoverable key event = true) {lost : SelectedRoute}
    (was : s.selected.get? key = some lost)
    (found : s.pendingSeqno.get? (key, lost.routerId) = some pending) :
    s.neighbours.containsKey pending.nextHop = true ∧ s.forgets event pending.nextHop = false ∧
      givesUp event pending = false := by
  simp only [Engine.recoverable, was, found, Option.all_some, Bool.and_eq_true, Bool.not_eq_true']
    at recoverable
  exact ⟨recoverable.2.1.1, recoverable.2.1.2, recoverable.2.2⟩

/-- At an event that ticks, such a request survives the tick. -/
theorem recoverable_tick (event : Event P) (ticks : event.ticks = true)
    (kept : ∀ hop, s.forgets event hop =
      (event.ticks && (s.neighbours.get? hop).any fun state => (state.age event.now).1.silent))
    (recoverable : s.recoverable key event = true) {lost : SelectedRoute}
    (was : s.selected.get? key = some lost) (pending : PendingSeqnoRequest)
    (found : s.pendingSeqno.get? (key, lost.routerId) = some pending) :
    ((s.neighbours.get? pending.nextHop).any fun state => !(state.age event.now).1.silent) = true ∧
      (event.now ≥ pending.nextRetryMs → pending.retriesLeft ≠ 0) := by
  obtain ⟨known, remembered, persists⟩ := recoverable_pending recoverable was found
  obtain ⟨state, here⟩ := AssocMap.containsKey_iff.mp known
  rw [kept, ticks, here] at remembered
  rw [givesUp, ticks] at persists
  simp only [here, Option.any_some, Bool.true_and] at remembered persists ⊢
  refine ⟨by rw [remembered]; rfl, fun due last => ?_⟩
  simp [due, last] at persists

variable [MetricProfile P M]

theorem handleValidated_recovers (order : HashOrder) (accounted : Accounted s)
    (recoverable : s.recoverable key event = true) {lost : SelectedRoute}
    (was : s.selected.get? key = some lost)
    (gone : (handleValidated order event s).1.selected.get? key = none) {candidate : Candidate}
    (stored : (handleValidated order event s).1.candidates.get? (key, neighbour) = some candidate)
    (finite : candidate.metric < INFINITY) :
    Recovers key lost.routerId (handleValidated order event s).2
      (handleValidated order event s).1 := by
  have alive : ∀ pending, s.pendingSeqno.get? (key, lost.routerId) = some pending →
      s.neighbours.containsKey pending.nextHop = true :=
    fun pending found => (recoverable_pending recoverable was found).1
  cases event with
  | interfaceUp interface localAddresses now =>
    exact interfaceUp_recovers order _ _ _ accounted was gone stored finite
      (recoverable_tick _ rfl (fun _ => rfl) recoverable was)
  | interfaceUpWithPolicy interface localAddresses policy now =>
    exact interfaceUp_recovers order _ _ _ accounted was gone stored finite
      (recoverable_tick _ rfl (fun _ => rfl) recoverable was)
  | interfacePolicyChanged interface policy resetMetric now =>
    have awake := recoverable_tick (.interfacePolicyChanged interface policy resetMetric now)
      rfl (fun _ => rfl) recoverable was
    cases here : s.interfaces.get? interface with
    | none =>
      simp only [handleValidated, interfacePolicyChanged, here] at gone
      cases was.symm.trans gone
    | some state =>
      simp only [Engine.recoverable, was, reselectsOnce, here, Option.all_some, Bool.and_eq_true,
        Bool.not_eq_true', beq_iff_eq] at recoverable
      obtain ⟨⟨rfl, same⟩, -⟩ := recoverable
      exact policyChanged_recovers order here same accounted was gone stored finite awake
  | interfaceAddressesChanged interface localAddresses now =>
    have same : (interfaceAddressesChanged interface localAddresses now s).1.selected =
        s.selected := by
      unfold interfaceAddressesChanged
      split
      · rfl
      · exact sendUpdates_keeps selected (fun _ _ => rfl) (fun _ _ => rfl) _ _ _ _
    cases was.symm.trans (same ▸ gone)
  | interfaceDown interface now =>
    refine interfaceDown_recovers order interface accounted was gone stored finite
      fun pending found => ?_
    obtain ⟨known, remembered, _⟩ := recoverable_pending recoverable was found
    exact ⟨known, of_decide_eq_false remembered⟩
  | packetReceived interface source packet now =>
    exact receive_recovers (receive_phase order interface source packet _ s) accounted was gone
      stored finite alive
  | packetReceivedWithTimestamp interface source packet now timestamp =>
    exact receive_recovers (receive_phase order interface source packet timestamp s) accounted was
      gone stored finite alive
  | originate origin metric now =>
    exact (originate_phase order origin metric s).edit_recovers accounted was gone stored finite
      alive
  | withdraw origin now =>
    exact (removeOrigin_phase order origin _ s).edit_recovers accounted was gone stored finite
      alive
  | replaceOrigins origins now =>
    exact (replaceOrigins_phase order origins s).edit_recovers accounted was gone stored finite
      alive
  | replaceRoutePolicy policy now =>
    exact replaceRoutePolicy_recovers order policy accounted was gone stored finite alive
  | tick now =>
    exact tick_recovers order accounted was gone stored finite
      (recoverable_tick (.tick now) rfl (fun _ => rfl) recoverable was)

/-- A key that loses its route while a finite candidate for it remains (which is then
infeasible) is asked for, or a request for it is pending, at a neighbour that is known on
an interface that is up. -/
theorem starving_loss_is_asked_for {history : List (Event P × List Action)} {s t : Engine P M}
    (run : RunOf anyEvent history s) {event : Event P} {actions : List Action}
    {key : RouteKey} (step : Step (recoverable key) s event actions t) {lost : SelectedRoute}
    (was : s.selected.get? key = some lost) (gone : t.selected.get? key = none)
    {neighbour : NeighborKey} {candidate : Candidate}
    (stored : t.candidates.get? (key, neighbour) = some candidate)
    (finite : candidate.metric < INFINITY) :
    (∃ hop, t.neighbours.containsKey hop = true ∧ t.interfaces.containsKey hop.interface = true ∧
        ∃ action ∈ actions, action.asks key hop = true) ∨
      ∃ pending, t.pendingSeqno.get? (key, lost.routerId) = some pending ∧
        t.neighbours.containsKey pending.nextHop = true ∧
        t.interfaces.containsKey pending.nextHop.interface = true := by
  obtain ⟨recoverable, order, handled⟩ := step
  have after : Accounted t := (show RunOf anyEvent (history ++ [(event, actions)]) t from
    .step run ⟨rfl, order, handled⟩).accounted
  obtain ⟨_, rfl, rfl⟩ := tryHandle_ok handled
  rcases handleValidated_recovers order run.accounted recoverable was gone stored finite with
    ⟨hop, known, asked⟩ | ⟨pending, found, known⟩
  · exact Or.inl ⟨hop, known, after.attached hop known, asked⟩
  · exact Or.inr ⟨pending, found, known, after.attached _ known⟩

end Guard

section Concrete
open Conformance

/-- A selected route on the first link and an infeasible one on the second; with
`distracted`, a better infeasible one on the third link was asked for before that
link went down. -/
def starving (distracted : Bool) : List (Event BuiltinProfile) :=
  [.interfaceUp (link 1) [] 0,
    .interfaceUp (link 2) [] 0,
    .interfaceUp (link 3) [] 0,
    packet (link 1) (address 2) (greeting 200) 1,
    packet (link 2) (address 3) (greeting 300) 1,
    packet (link 3) (address 4) (greeting 96) 1,
    packet (link 1) (address 2) [routeUpdate destination (address 2) (nodeId 1) 100 0] 2] ++
  (if distracted then
    [packet (link 3) (address 4) [routeUpdate destination (address 4) (nodeId 1) 99 0] 3] else []) ++
  [packet (link 2) (address 3) [routeUpdate destination (address 3) (nodeId 1) 99 0] 4,
    .interfaceDown (link 3) 5]

/-- The neighbour of the infeasible candidate is asked. -/
theorem lost_link_asks_alternate :
    ∃ (history : List (Event BuiltinProfile × List Action)) (s t : Harness)
        (actions : List Action), RunOf anyEvent history s ∧
      Step (recoverable destination) s (.interfaceDown (link 1) 6) actions t ∧
      ((∃ hop, t.neighbours.containsKey hop = true ∧
          t.interfaces.containsKey hop.interface = true ∧
          ∃ action ∈ actions, action.asks destination hop = true) ∨
        ∃ pending, t.pendingSeqno.get? (destination, nodeId 1) = some pending ∧
          t.neighbours.containsKey pending.nextHop = true ∧
          t.interfaces.containsKey pending.nextHop.interface = true) := by
  obtain ⟨history, s, run, recoverable, was, gone, remains⟩ := run_of_checked_play anyEvent
    (harness (nodeId 0)) (starving false)
    (fun _ (s : Harness) =>
      s.recoverable destination (.interfaceDown (link 1) 6) = true ∧
        ((s.selected.get? destination).map SelectedRoute.routerId) = some (nodeId 1) ∧
        (noteLifetimes (handleValidated HashOrder.stored (.interfaceDown (link 1) 6)
          s)).selected.get? destination = none ∧
        ((noteLifetimes (handleValidated HashOrder.stored (.interfaceDown (link 1) 6)
          s)).candidates.get? (destination, ⟨link 2, address 3⟩)).any (fun candidate =>
            decide (candidate.metric < INFINITY)) = true)
    rfl (by decide +kernel)
  obtain ⟨lost, selected, named⟩ := Option.map_eq_some_iff.mp was
  obtain ⟨candidate, stored, finite⟩ := (Option.any_eq_true _ _).mp remains
  have step : Step (Engine.recoverable destination) s (.interfaceDown (link 1) 6) _ _ :=
    ⟨recoverable, _, tryHandle_valid _ rfl HashOrder.stored s⟩
  have asked := starving_loss_is_asked_for run step selected gone stored (of_decide_eq_true finite)
  rw [named] at asked
  exact ⟨history, s, _, _, run, step, asked⟩

/-- The pending request to a neighbour that is gone suppresses the one that could help. -/
theorem dead_request_suppresses_recovery :
    ∃ (history : List (Event BuiltinProfile × List Action)) (before after : Harness)
        (actions : List Action),
      RunOf anyEvent history before ∧
        Step anyEvent before (.interfaceDown (link 1) 6) actions after ∧
        ((before.selected.get? destination).map SelectedRoute.routerId) = some (nodeId 1) ∧
        after.selected.get? destination = none ∧
        (after.candidates.get? (destination, ⟨link 2, address 3⟩)).any (fun candidate =>
          decide (candidate.metric < INFINITY) && !after.candidateIsFeasible candidate) = true ∧
        (∀ action ∈ actions, ∀ hop ∈ after.neighbours.keys, action.asks destination hop = false) ∧
        (after.pendingSeqno.get? (destination, nodeId 1)).any (fun pending =>
          !after.neighbours.containsKey pending.nextHop) = true := by
  exact step_of_checked_play anyEvent
    (harness (nodeId 0)) (starving true) (.interfaceDown (link 1) 6) _ rfl (by decide +kernel)

end Concrete

end Engine

end BabelRs
