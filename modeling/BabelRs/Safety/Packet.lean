import BabelRs.Safety.Selection

/-!
# What one route TLV can do

An inversion of `receive_update`, `handle_seqno_request` and the TLV loop of
`receive`: every outcome is an announcement from unchanged tables, a sequence
number bump followed by one, or a change of the candidate table with the
answers to the requests it satisfied.
-/

set_option autoImplicit false

namespace BabelRs

open Lib Lib.Effect

variable (order : HashOrder) (neighbour : NeighborKey)

namespace Engine

variable {P M : Type} {now : UInt64}
variable {s t : Engine P M}

/-! ## Answered requests -/

/-- Answers to satisfied requests: each advertises the received route to one of
the neighbours that `asked`. -/
structure Answers (asked : NeighborKey → Prop) (update : FiniteUpdate) (metric : UInt16)
    (now : UInt64) (s : Engine P M) (actions : List Action) (t : Engine P M) : Prop where
  quiet : Quiet s t
  recorded : t.feasible = (sentUpdates actions).foldl (SourceTable.note now) s.feasible
  sends : ∀ action ∈ actions, action.isSend = true
  replies : ∀ sent ∈ sentUpdates actions, asked ⟨sent.interface, sent.destination⟩ ∧
    sent.timing = SendTiming.urgent now ∧
    sent.update = s.advertisement sent.interface update.key update.routerId update.seqno metric

theorem answers_chains (asked : NeighborKey → Prop) (update : FiniteUpdate) (metric : UInt16)
    (now : UInt64) : Chains (Answers (P := P) (M := M) asked update metric now) where
  refl := fun s => ⟨Quiet.refl s, rfl, by simp, by simp⟩
  trans := by
    intro s middle t first second left right
    refine ⟨left.quiet.trans right.quiet, ?_, ?_, ?_⟩
    · rw [sentUpdates_append, List.foldl_append, ← left.recorded, right.recorded]
    · intro action member
      rcases List.mem_append.mp member with early | late
      · exact left.sends action early
      · exact right.sends action late
    · intro sent member
      rw [sentUpdates_append] at member
      rcases List.mem_append.mp member with early | late
      · exact left.replies sent early
      · obtain ⟨wanted, urgent, same⟩ := right.replies sent late
        rw [advertisement_congr left.quiet.config left.quiet.links] at same
        exact ⟨wanted, urgent, same⟩

variable {asked : NeighborKey → Prop} {update : FiniteUpdate} {metric : UInt16}

theorem Answers.silent (quiet : Quiet s t) (same : t.feasible = s.feasible) :
    Answers asked update metric now s [] t :=
  ⟨quiet, same, by simp, by simp⟩

theorem updateActionToCandidate_answers (s : Engine P M) {requester : NeighborKey}
    (wanted : asked requester) :
    Answers asked update metric now s
      (updateActionToCandidate update.key update.routerId update.seqno metric requester now s).2
      (updateActionToCandidate update.key update.routerId update.seqno metric requester now s).1 := by
  rw [updateActionToCandidate_eq]
  refine ⟨quiet_maintainWhen _ _ _ _ s, ?_, by simp [Action.isSend], ?_⟩
  · exact maintain_advertisement s requester.interface requester.address (SendTiming.urgent now)
      update.key update.routerId update.seqno metric
  · intro sent member
    simp only [sentUpdates_cons, Action.sent, sentOn_update, sentUpdates_nil, List.append_nil,
      List.mem_singleton] at member
    subst member
    exact ⟨wanted, rfl, rfl⟩

theorem answerPending_answers (entry : (RouteKey × RouterId) × PendingSeqnoRequest)
    (wanted : ∀ requester, entry.2.requester = some requester → asked requester) :
    Meets (Answers (P := P) (M := M) asked update metric now)
      (answerPending update metric now entry) := by
  intro s
  have chains := answers_chains (P := P) (M := M) asked update metric now
  have dropped : Answers asked update metric now s []
      { s with pendingSeqno := s.pendingSeqno.remove entry.1 } :=
    Answers.silent ⟨⟨rfl, rfl, fun _ => rfl, rfl, rfl, rfl, rfl, rfl, rfl, rfl⟩, rfl⟩ rfl
  have remembered : ∀ u : Engine P M, Answers asked update metric now u []
      { u with
        recentSeqno := u.recentSeqno.insert entry.1 (entry.2.seqno, satAdd now recentRequestMs) } :=
    fun u => Answers.silent ⟨⟨rfl, rfl, fun _ => rfl, rfl, rfl, rfl, rfl, rfl, rfl, rfl⟩, rfl⟩ rfl
  simp only [answerPending]
  cases asking : entry.2.requester with
  | none => exact chains.trans dropped (remembered _)
  | some requester =>
    have replied := chains.trans dropped
      (updateActionToCandidate_answers _ (wanted requester asking))
    have finished := chains.trans replied (remembered _)
    exact finished

/-- A neighbour whose forwarded request the Update satisfies. -/
def awaits (engine : Engine P M) (update : FiniteUpdate) (requester : NeighborKey) : Prop :=
  ∃ pendingKey pending, engine.pendingSeqno.get? pendingKey = some pending ∧
    satisfies update pendingKey pending = true ∧ pending.requester = some requester

/-- Settling the requests of an Update either announces nothing or, when the
Update is feasible, answers those who wait for it. -/
theorem settleRequests_cases (update : FiniteUpdate) (metric : UInt16) (s : Engine P M) :
    Announces nothingLost now s (settleRequests order neighbour update metric now s).2
        (settleRequests order neighbour update metric now s).1 ∧
        sentUpdates (settleRequests order neighbour update metric now s).2 = [] ∨
      s.sourceFeasible update.key update.routerId update.distance = true ∧
        Answers (s.awaits update) update metric now s
          (settleRequests order neighbour update metric now s).2
          (settleRequests order neighbour update metric now s).1 := by
  have quietly : ∀ u : Engine P M, u = s → Announces nothingLost now s [] u :=
    fun u same => same ▸ (announces_chains nothingLost now).refl s
  unfold settleRequests
  split_ifs with feasible pending better
  · right
    refine ⟨feasible, meets_forEach (answers_chains _ update metric now) ?_ s⟩
    intro entry member
    obtain ⟨stored, satisfied⟩ := List.mem_filter.mp member
    refine answerPending_answers entry fun requester asking => ?_
    exact ⟨entry.1, entry.2, AssocMap.get?_eq_some_iff.mpr ((HashOrder.mem_iter order).mp stored),
      satisfied, asking⟩
  · exact Or.inl ⟨quietly s rfl, rfl⟩
  · left
    cases s.feasible.get? (update.key, update.routerId) with
    | none => exact ⟨quietly s rfl, rfl⟩
    | some source => exact ⟨originateSeqnoRequest_announces _ s, rfl⟩
  · exact Or.inl ⟨quietly s rfl, rfl⟩

/-! ## Received Updates -/

section Receive
variable [NeighborMetric M]

def importContext (neighbour : NeighborKey) (update : FiniteUpdate) : ImportContext where
  key := update.key
  interface := neighbour.interface
  neighbor := neighbour.address
  nextHop := update.nextHop
  routerId := update.routerId
  seqno := update.seqno
  advertisedMetric := update.advertisedMetric

/-- The checks on a finite Update that no earlier Update of the packet affects. -/
def admissible (engine : Engine P M) (neighbour : NeighborKey) (update : FiniteUpdate) : Bool :=
  !forbiddenDestination update.key.destination && update.routerId != engine.config.routerId &&
    !(update.key.destination.isIpv4 && update.nextHop.isIpv6 && !engine.config.ipv4ViaIpv6) &&
    engine.config.routePolicy.accept (importContext neighbour update)

/-- The finite content of a received Update whose context is complete. -/
def resolvedFinite (update : ResolvedUpdate) : Option FiniteUpdate :=
  match update.key, update.routerId, update.nextHop with
  | some key, some routerId, some nextHop =>
    if update.metric = INFINITY then none
    else some ⟨key, routerId, nextHop, update.intervalCs, update.seqno, update.metric⟩
  | _, _, _ => none

theorem resolvedFinite_key {update : ResolvedUpdate} {finite : FiniteUpdate}
    (resolved : resolvedFinite update = some finite) : update.key = some finite.key := by
  unfold resolvedFinite at resolved
  split at resolved
  next named _ _ =>
    split_ifs at resolved
    cases resolved
    exact named
  next => cases resolved

def extendedMetric (engine : Engine P M) (state : Neighbor M) (update : FiniteUpdate) : UInt16 :=
  safeExtend engine.config.metricAlgebra update.advertisedMetric (NeighborMetric.linkCost state.metric)

/-- The candidate is stored already, or the limits admit a new one. -/
def hasRoom (s : Engine P M) (neighbour : NeighborKey) (state : Neighbor M) (key : RouteKey) : Prop :=
  s.candidates.containsKey (key, neighbour) = true ∨
    state.candidates < s.config.limits.maxCandidatesPerNeighbor ∧
      s.candidates.len < s.config.limits.maxCandidates

/-- Everything `receive_update` can do. -/
inductive UpdateEffect (neighbour : NeighborKey) (now : UInt64) (update : ResolvedUpdate)
    (s : Engine P M) : UpdateOutcome P M → Prop
  | announced {t : Engine P M} {actions : List Action}
      (announces : Announces nothingLost now s actions t) (silent : sentUpdates actions = []) :
      UpdateEffect neighbour now update s ⟨t, false, actions⟩
  | retractedAll (wildcard : update.key = none) (infinite : update.metric = INFINITY) :
      UpdateEffect neighbour now update s (s.retractAll neighbour)
  | retracted (key : RouteKey) (named : update.key = some key)
      (infinite : update.metric = INFINITY) :
      UpdateEffect neighbour now update s (s.retractOne (key, neighbour))
  | rejected (finite : FiniteUpdate) (resolved : resolvedFinite update = some finite) :
      UpdateEffect neighbour now update s (s.rejectByPolicy (finite.key, neighbour))
  | limited (perNeighbor : Bool) :
      UpdateEffect neighbour now update s (s.rejectByLimit neighbour perNeighbor)
  | stored (finite : FiniteUpdate) (state : Neighbor M) {settled : Engine P M}
      {actions : List Action} (resolved : resolvedFinite update = some finite)
      (admitted : s.admissible neighbour finite = true)
      (known : s.neighbours.get? neighbour = some state) (room : s.hasRoom neighbour state finite.key)
      (current : s.sourceFeasible finite.key finite.routerId finite.distance = true ∨
        s.refreshesSelected neighbour finite = false)
      (requests : Announces nothingLost now s actions settled ∧ sentUpdates actions = [] ∨
        s.sourceFeasible finite.key finite.routerId finite.distance = true ∧
          Answers (s.awaits finite) finite (s.extendedMetric state finite) now s actions settled) :
      UpdateEffect neighbour now update s
        { engine := settled.storeCandidate neighbour finite (s.extendedMetric state finite) now
          changed := candidateChanges (s.candidates.get? (finite.key, neighbour)) finite
            (s.extendedMetric state finite)
          actions := actions }

theorem UpdateEffect.unchanged (update : ResolvedUpdate) (s : Engine P M) :
    UpdateEffect neighbour now update s ⟨s, false, []⟩ :=
  .announced ((announces_chains nothingLost now).refl s) rfl

theorem admitUpdate_effect (state : Neighbor M) (update : ResolvedUpdate) (finite : FiniteUpdate)
    (s : Engine P M) (resolved : resolvedFinite update = some finite)
    (admitted : s.admissible neighbour finite = true)
    (known : s.neighbours.get? neighbour = some state) (room : s.hasRoom neighbour state finite.key) :
    UpdateEffect neighbour now update s (s.admitUpdate order neighbour state finite now) := by
  simp only [admitUpdate]
  split
  next => exact .unchanged neighbour update s
  next =>
    split
    next =>
      cases s.feasible.get? (finite.key, finite.routerId) with
      | none => exact .unchanged neighbour update s
      | some source => exact .announced (originateSeqnoRequest_announces _ s) rfl
    next current =>
      have requests : Announces nothingLost now s _ _ ∧ _ ∨ _ :=
        settleRequests_cases order neighbour finite (s.extendedMetric state finite) s
      have candidates : (settleRequests order neighbour finite (s.extendedMetric state finite) now
          s).1.candidates = s.candidates := by
        rcases requests with ⟨announces, _⟩ | ⟨_, answers⟩
        · exact announces.quiet.candidates
        · exact answers.quiet.candidates
      have currency : s.sourceFeasible finite.key finite.routerId finite.distance = true ∨
          s.refreshesSelected neighbour finite = false := by
        cases feasible : s.sourceFeasible finite.key finite.routerId finite.distance with
        | true => exact Or.inl rfl
        | false => exact Or.inr (by simpa [feasible] using current)
      have stored : UpdateEffect neighbour now update s _ :=
        .stored finite state resolved admitted known room currency requests
      rw [← candidates] at stored
      exact stored

theorem receiveUpdate_effect (update : ResolvedUpdate) (s : Engine P M) :
    UpdateEffect neighbour now update s (s.receiveUpdate order neighbour update now) := by
  unfold receiveUpdate
  cases named : update.key with
  | none =>
    simp only
    split
    next infinite => exact .retractedAll named infinite
    next => exact .unchanged neighbour update s
  | some key =>
    simp only
    split
    next => exact .unchanged neighbour update s
    next allowed =>
      split
      next infinite => exact .retracted key named infinite
      next finite =>
        split
        next routerId nextHop hasRouter hasHop =>
          have resolved : resolvedFinite update =
              some ⟨key, routerId, nextHop, update.intervalCs, update.seqno, update.metric⟩ := by
            simp [resolvedFinite, named, hasRouter, hasHop, finite]
          simp only [receiveFinite]
          split
          next => exact .unchanged neighbour update s
          next foreign =>
            split
            next => exact .unchanged neighbour update s
            next reachable =>
              split
              next => exact .unchanged neighbour update s
              next state known =>
                split
                next => exact .rejected _ resolved
                next accepted =>
                  split
                  next => exact .limited _
                  next crowded =>
                    refine admitUpdate_effect order neighbour state update _ s resolved ?_ known ?_
                    swap
                    · simpa [hasRoom, Classical.or_iff_not_imp_left] using crowded
                    simp only [admissible, importContext, Bool.and_eq_true, bne_iff_ne]
                    exact ⟨⟨⟨by simpa using allowed, foreign⟩, by simpa only [Bool.not_eq_true', Bool.not_eq_true] using reachable⟩,
                      by simpa using accepted⟩
        next => exact .unchanged neighbour update s

end Receive

/-! ## Requests -/

/-- The keys a request TLV asks for. -/
def requestsKey : Tlv → RouteKey → Bool
  | .routeRequest (some named) _, key => decide (named = key)
  | .routeRequest none _, _ => true
  | .seqnoRequest named _ _ _ _, key => decide (named = key)
  | _, _ => false

def Requested (tlv : Tlv) (actions : List Action) : Prop :=
  ∀ sent ∈ sentUpdates actions, ∃ key, sent.update.key = some key ∧ requestsKey tlv key = true

theorem requested_of_wanted {tlv : Tlv} {only : Option RouteKey} {interface : Option InterfaceName}
    {timing : Option SendTiming}
    (asked : ∀ key, wanted only key = true → requestsKey tlv key = true) :
    Requested tlv (sendUpdates now only interface timing s).2 := by
  intro sent member
  obtain ⟨key, named, chosen⟩ := sendUpdates_wanted only interface timing s sent member
  exact ⟨key, named, asked key chosen⟩

theorem requested_updateAction {tlv : Tlv} {key : RouteKey} {routerId : RouterId}
    {seqno metric : UInt16} {destination : NeighborKey} (asked : requestsKey tlv key = true) :
    Requested tlv (updateActionToCandidate key routerId seqno metric destination now s).2 := by
  intro sent member
  rw [updateActionToCandidate_eq] at member
  simp only [sentUpdates_cons, Action.sent, sentOn_update, sentUpdates_nil, List.append_nil,
    List.mem_singleton] at member
  subst member
  exact ⟨key, rfl, asked⟩

theorem requested_reply {tlv : Tlv} {key : RouteKey} {destination : NeighborKey}
    (asked : requestsKey tlv key = true) :
    Requested tlv (replyToRouteRequest key destination now s).2 := by
  unfold replyToRouteRequest
  cases s.originated.get? key with
  | some origin => exact requested_updateAction asked
  | none =>
    cases s.selected.get? key with
    | some route => exact requested_updateAction asked
    | none =>
      intro sent member
      simp only [retractionAction, sentUpdates_cons, Action.sent, sentOn_update,
        sentUpdates_nil, List.append_nil, List.mem_singleton] at member
      subst member
      exact ⟨key, rfl, asked⟩

/-- Everything a sequence-number request can do: announce the key it asks for, or
bump the local number first. -/
theorem handleSeqnoRequest_cases (requester : NeighborKey) (key : RouteKey) (seqno : UInt16)
    (hopCount : UInt8) (routerId : RouterId) (subTlvs : List SubTlv) (s : Engine P M) :
    Announces nothingLost now s
        (handleSeqnoRequest order requester key seqno hopCount routerId now s).2
        (handleSeqnoRequest order requester key seqno hopCount routerId now s).1 ∧
        (SelectedKeyed s → Requested (.seqnoRequest key seqno hopCount routerId subTlvs)
          (handleSeqnoRequest order requester key seqno hopCount routerId now s).2) ∨
      ∃ actions, (handleSeqnoRequest order requester key seqno hopCount routerId now s).2 =
          .sequenceNumberChanged (s.sequenceNumber + 1) :: actions ∧
        (s.originated.containsKey key = true ∧ routerId = s.config.routerId) ∧
        Announces nothingLost now s.bumpSequenceNumber actions
          (handleSeqnoRequest order requester key seqno hopCount routerId now s).1 ∧
        Requested (.seqnoRequest key seqno hopCount routerId subTlvs) actions := by
  have asked : requestsKey (.seqnoRequest key seqno hopCount routerId subTlvs) key = true := by
    simp [requestsKey]
  have askedOnly : ∀ other, wanted (some key) other = true →
      requestsKey (.seqnoRequest key seqno hopCount routerId subTlvs) other = true := by
    intro other chosen
    simpa [wanted, requestsKey] using chosen
  simp only [handleSeqnoRequest]
  split
  next =>
    exact Or.inl ⟨replyToRouteRequest_announces key requester s, fun _ => requested_reply asked⟩
  next =>
    split
    next route answered =>
      left
      have found : s.selected.get? key = some route := (Option.filter_eq_some_iff.mp answered).1
      constructor
      · refine updateActionToCandidate_announces route.key route.routerId route.seqno route.metric
          requester s fun keyed => ?_
        exact .selected route (by rw [keyed key route found]; exact found) rfl
      · intro keyed
        exact requested_updateAction (by rw [keyed key route found]; exact asked)
    next =>
      split
      next origin own =>
        obtain ⟨found, isOwn⟩ := Option.filter_eq_some_iff.mp own
        by_cases newer : seqnoGt seqno origin.seqno = true
        · right
          refine ⟨(sendUpdates now (some key) none (some (SendTiming.urgent now))
            s.bumpSequenceNumber).2, ?_, ?_, ?_, ?_⟩
          · simp [answerOwnRequest, when, newer, bumpSequenceNumber]
          · exact ⟨OrdMap.containsKey_iff.mpr ⟨origin, found⟩, by simpa using isOwn⟩
          · have announced : Announces nothingLost now s.bumpSequenceNumber _ _ :=
              sendUpdates_announces (some key) none (some (SendTiming.urgent now))
                s.bumpSequenceNumber
            simpa [answerOwnRequest, when, newer] using announced
          · exact requested_of_wanted askedOnly
        · left
          have plain : answerOwnRequest key seqno origin now s =
              sendUpdates now (some key) none (some (SendTiming.urgent now)) s := by
            simp [answerOwnRequest, when, newer]
          rw [plain]
          exact ⟨sendUpdates_announces _ _ _ s, fun _ => requested_of_wanted askedOnly⟩
      next =>
        left
        refine ⟨forwardRequest_announces order requester key seqno hopCount routerId s,
          fun _ => ?_⟩
        have silent : sentUpdates (forwardRequest order requester key seqno hopCount routerId now
            s).2 = [] := by
          unfold forwardRequest
          split_ifs
          · rfl
          · rfl
          · cases s.forwardingTarget order requester key routerId <;> rfl
        intro sent member
        rw [silent] at member
        cases member

/-! ## The TLV loop -/

section Loop
variable [NeighborMetric M]

/-- Everything one route TLV can do to the engine; the flag tells whether
reselection is due. -/
inductive TlvEffect (neighbour : NeighborKey) (now : UInt64) (tlv : Tlv) (s : Engine P M) :
    List Action → Engine P M → Bool → Prop
  | announced {actions : List Action} {t : Engine P M} {changed : Bool}
      (announces : Announces nothingLost now s actions t)
      (requested : SelectedKeyed s → Requested tlv actions) :
      TlvEffect neighbour now tlv s actions t changed
  | bumped {actions : List Action} {t : Engine P M} (key : RouteKey)
      (own : s.originated.containsKey key = true ∧ requestsKey tlv key = true)
      (announces : Announces nothingLost now s.bumpSequenceNumber actions t)
      (requested : Requested tlv actions) :
      TlvEffect neighbour now tlv s (.sequenceNumberChanged (s.sequenceNumber + 1) :: actions) t
        true
  | updated {outcome : UpdateOutcome P M} (update : ResolvedUpdate) (isUpdate : tlv = .update update)
      (effect : UpdateEffect neighbour now update s outcome) :
      TlvEffect neighbour now tlv s outcome.actions outcome.engine outcome.changed

theorem receiveTlv_effect (now : UInt64) (tlv : Tlv) (state : ReceiveState P M) :
    ∃ changed, (receiveTlv order neighbour now tlv state).1.routesChanged =
        (state.routesChanged || changed) ∧
      TlvEffect neighbour now tlv state.engine (receiveTlv order neighbour now tlv state).2
        (receiveTlv order neighbour now tlv state).1.engine changed := by
  have chains := announces_chains (P := P) (M := M) nothingLost now
  have quietly : ∀ actions : List Action,
      (∀ action ∈ actions, action.isSend = true ∧ action.sent = []) →
      TlvEffect neighbour now tlv state.engine actions state.engine false := by
    intro actions silent
    refine .announced (Announces.wordless (Quiet.refl _) rfl (fun action member =>
      (silent action member).1) fun action member => (silent action member).2) fun _ sent member => ?_
    rw [sentUpdates_eq_nil fun action inside => (silent action inside).2] at member
    cases member
  cases tlv with
  | ackRequest nonce intervalCs =>
    exact ⟨false, by simp [receiveTlv], quietly _ (by simp [receiveTlv, Action.isSend, Action.sent,
      sentOn, updatesOf])⟩
  | update update =>
    exact ⟨(state.engine.receiveUpdate order neighbour update now).changed, rfl,
      .updated update rfl (receiveUpdate_effect order neighbour update state.engine)⟩
  | routeRequest key subTlvs =>
    refine ⟨true, ?_, ?_⟩
    · cases key with
      | none =>
        simp only [receiveTlv]
        split <;> simp
      | some key => simp [receiveTlv]
    · cases key with
      | none =>
        simp only [receiveTlv]
        split
        · exact .announced (sendUpdates_announces _ _ _ _) fun _ =>
            requested_of_wanted fun _ _ => rfl
        · exact .announced (chains.refl _) fun _ => by simp [Requested]
      | some key =>
        exact .announced (replyToRouteRequest_announces key neighbour _) fun _ =>
          requested_reply (by simp [requestsKey])
  | seqnoRequest key seqno hopCount routerId subTlvs =>
    refine ⟨true, by simp [receiveTlv], ?_⟩
    rcases handleSeqnoRequest_cases order neighbour key seqno hopCount routerId
      subTlvs state.engine with ⟨announces, requested⟩ | ⟨actions, emitted, own, announces, requested⟩
    · exact .announced announces requested
    · simp only [receiveTlv, emitted]
      exact .bumped key ⟨own.1, by simp [requestsKey]⟩ announces requested
  | pad1 => exact ⟨false, by simp [receiveTlv], quietly [] (by simp)⟩
  | padN body => exact ⟨false, by simp [receiveTlv], quietly [] (by simp)⟩
  | ack nonce => exact ⟨false, by simp [receiveTlv], quietly [] (by simp)⟩
  | hello unicast seqno intervalCs subTlvs =>
    exact ⟨false, by simp [receiveTlv], quietly [] (by simp)⟩
  | ihu address rxcost intervalCs subTlvs =>
    exact ⟨false, by simp [receiveTlv], quietly [] (by simp)⟩
  | routerId id => exact ⟨false, by simp [receiveTlv], quietly [] (by simp)⟩
  | nextHop address => exact ⟨false, by simp [receiveTlv], quietly [] (by simp)⟩
  | unknown type value => exact ⟨false, by simp [receiveTlv], quietly [] (by simp)⟩

end Loop

end Engine

end BabelRs
