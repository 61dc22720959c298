import BabelRs.Safety.Phases

/-!
# Forwarded sequence-number requests

The pending table has one slot for each key and router-id, shared by the node's
own recovery requests and by those it forwards.  `receive_update` writes a slot
in three places; the infeasible refresh of the selected route is the one that
does not look whether the slot is taken.
-/

set_option autoImplicit false

namespace BabelRs

open Lib Lib.Effect

variable (order : HashOrder)

namespace Engine

variable {P M : Type} {now : UInt64}
variable {s : Engine P M} {neighbour : NeighborKey}

/-! ## Admission -/

/-- A finite Update that gets past every check ahead of feasibility. -/
def admits (s : Engine P M) (neighbour : NeighborKey) (finite : FiniteUpdate) : Bool :=
  s.admissible neighbour finite &&
    (s.neighbours.get? neighbour).any fun state =>
      s.candidates.containsKey (finite.key, neighbour) ||
        (decide (state.candidates < s.config.limits.maxCandidatesPerNeighbor) &&
          decide (s.candidates.len < s.config.limits.maxCandidates))

/-- An infeasible Update over the selected route itself, by identity. -/
def ignoresRefresh (s : Engine P M) (neighbour : NeighborKey) (finite : FiniteUpdate) : Bool :=
  !s.sourceFeasible finite.key finite.routerId finite.distance &&
    s.refreshesSelected neighbour finite

theorem safeExtend_grows {algebra : MetricAlgebra} {advertised link : UInt16}
    (finite : safeExtend algebra advertised link ≠ INFINITY) :
    ¬ safeExtend algebra advertised link ≤ advertised := by
  unfold safeExtend at finite ⊢
  dsimp only at finite ⊢
  split_ifs at finite ⊢ with unreachable shrinks
  · exact absurd rfl finite
  · exact absurd rfl finite
  · exact shrinks

theorem sourceFeasible_false {key : RouteKey} {routerId : RouterId} {distance : Distance}
    (infeasible : s.sourceFeasible key routerId distance = false) :
    ∃ source, s.feasible.get? (key, routerId) = some source := by
  cases found : s.feasible.get? (key, routerId) with
  | some source => exact ⟨source, rfl⟩
  | none => simp [sourceFeasible, found] at infeasible

variable {finite : FiniteUpdate}

section Metric
variable [NeighborMetric M]

variable {update : ResolvedUpdate}

theorem receiveUpdate_resolved (s : Engine P M) (resolved : resolvedFinite update = some finite) :
    s.receiveUpdate order neighbour update now =
      if forbiddenDestination finite.key.destination then ⟨s, false, []⟩
      else s.receiveFinite order neighbour finite now := by
  unfold resolvedFinite at resolved
  split at resolved
  next key routerId nextHop named hasRouter hasHop =>
    split_ifs at resolved with infinite
    cases resolved
    simp only [receiveUpdate, named, hasRouter, hasHop, if_neg infinite]
  next => cases resolved

theorem admitUpdate_eq (neighbour : NeighborKey) (state : Neighbor M) (finite : FiniteUpdate)
    (s : Engine P M) :
    s.admitUpdate order neighbour state finite now =
      if s.ignoresRefresh neighbour finite then
        match s.feasible.get? (finite.key, finite.routerId) with
        | none => ⟨s, false, []⟩
        | some source =>
          ⟨(recoveryRequest neighbour finite source.distance now s).1, false,
            (recoveryRequest neighbour finite source.distance now s).2⟩
      else
        let settled := settleRequests order neighbour finite (s.extendedMetric state finite) now s
        { engine := settled.1.storeCandidate neighbour finite (s.extendedMetric state finite) now
          changed := candidateChanges (settled.1.candidates.get? (finite.key, neighbour)) finite
            (s.extendedMetric state finite)
          actions := settled.2 } := by
  have grows : ¬ (s.extendedMetric state finite ≠ INFINITY ∧
      s.extendedMetric state finite ≤ finite.advertisedMetric) :=
    fun shrinks => safeExtend_grows shrinks.1 shrinks.2
  exact if_neg grows

theorem receiveUpdate_admitted (resolved : resolvedFinite update = some finite)
    (admitted : s.admits neighbour finite = true) :
    ∃ state, s.neighbours.get? neighbour = some state ∧
      s.receiveUpdate order neighbour update now =
        s.admitUpdate order neighbour state finite now := by
  obtain ⟨allowed, room⟩ := Bool.and_eq_true_iff.mp admitted
  obtain ⟨state, known, spare⟩ := (Option.any_eq_true _ _).mp room
  refine ⟨state, known, ?_⟩
  simp only [admissible, importContext, Bool.and_eq_true, Bool.not_eq_true', bne_iff_ne] at allowed
  obtain ⟨⟨⟨destination, foreign⟩, family⟩, accepted⟩ := allowed
  rw [receiveUpdate_resolved order s resolved, destination]
  simp only [receiveFinite, if_neg foreign, family, known, accepted, Bool.not_true,
    Bool.false_eq_true, if_false]
  refine if_neg fun crowded => ?_
  simp only [Bool.and_eq_true, Bool.or_eq_true, Bool.not_eq_true', decide_eq_true_eq]
    at crowded spare
  obtain ⟨fresh, full⟩ := crowded
  rcases spare with stored | ⟨few, fewer⟩
  · rw [stored] at fresh
    cases fresh
  · omega

/-- An Update that is not admitted asks nothing and answers nobody. -/
theorem receiveUpdate_refused (s : Engine P M)
    (refused : ∀ finite, resolvedFinite update = some finite → s.admits neighbour finite = false) :
    (s.receiveUpdate order neighbour update now).engine.pendingSeqno = s.pendingSeqno ∧
      (s.receiveUpdate order neighbour update now).actions = [] := by
  cases resolved : resolvedFinite update with
  | none =>
    unfold receiveUpdate
    cases named : update.key with
    | none =>
      simp only
      split <;> exact ⟨rfl, rfl⟩
    | some key =>
      simp only
      split_ifs with forbidden infinite
      · exact ⟨rfl, rfl⟩
      · exact ⟨rfl, rfl⟩
      · split
        next routerId nextHop hasRouter hasHop =>
          simp [resolvedFinite, named, hasRouter, hasHop, infinite] at resolved
        next => exact ⟨rfl, rfl⟩
  | some finite =>
    have shut := refused finite resolved
    rw [receiveUpdate_resolved order s resolved]
    split_ifs with forbidden
    · exact ⟨rfl, rfl⟩
    · simp only [receiveFinite]
      split
      · exact ⟨rfl, rfl⟩
      next foreign =>
        split
        · exact ⟨rfl, rfl⟩
        next family =>
          split
          · exact ⟨rfl, rfl⟩
          next state known =>
            split
            · simp only [rejectByPolicy]
              exact ⟨by split <;> rfl, trivial⟩
            next accepted =>
              split
              · exact ⟨rfl, rfl⟩
              next roomy =>
                -- Every check was passed, so the Update is admitted after all.
                refine absurd ?_ (ne_true_of_eq_false shut)
                simp only [admits, admissible, importContext, known, Option.any_some]
                simp only [Bool.and_eq_true, Bool.or_eq_true, Bool.not_eq_true', bne_iff_ne,
                  decide_eq_true_eq, not_and, not_or, Nat.not_le] at forbidden accepted roomy ⊢
                refine ⟨⟨⟨⟨by simpa using forbidden, foreign⟩, by simpa using family⟩,
                  by simpa using accepted⟩, ?_⟩
                cases stored : s.candidates.containsKey (finite.key, neighbour) with
                | true => exact Or.inl rfl
                | false => exact Or.inr (by simpa using roomy stored)

end Metric

/-! ## The pending table -/

theorem pendingSeqno_answerPending (update : FiniteUpdate) (metric : UInt16)
    (entry : (RouteKey × RouterId) × PendingSeqnoRequest) (s : Engine P M) :
    (answerPending update metric now entry s).1.pendingSeqno = s.pendingSeqno.remove entry.1 := by
  simp only [answerPending]
  cases entry.2.requester with
  | none => rfl
  | some requester =>
    simp only [updateActionToCandidate]
    split <;> rfl

variable {slot : RouteKey × RouterId}

theorem get?_answerAll {update : FiniteUpdate} {metric : UInt16}
    {entries : List ((RouteKey × RouterId) × PendingSeqnoRequest)}
    (spared : ∀ entry ∈ entries, entry.1 ≠ slot) (s : Engine P M) :
    (forEach entries (answerPending update metric now) s).1.pendingSeqno.get? slot =
      s.pendingSeqno.get? slot := by
  have chains : Chains fun (s : Engine P M) (_ : List Action) t =>
      t.pendingSeqno.get? slot = s.pendingSeqno.get? slot :=
    ⟨fun _ => rfl, fun first second => second.trans first⟩
  refine meets_forEach chains (fun entry member u => ?_) s
  show AssocMap.get? _ slot = _
  rw [pendingSeqno_answerPending, AssocMap.get?_remove, if_neg (Ne.symm (spared entry member))]

theorem get?_settleRequests (neighbour : NeighborKey) (metric : UInt16)
    {pending : PendingSeqnoRequest} (found : s.pendingSeqno.get? slot = some pending)
    (unsatisfied : s.sourceFeasible finite.key finite.routerId finite.distance = true →
      satisfies finite slot pending = false) :
    (settleRequests order neighbour finite metric now s).1.pendingSeqno.get? slot = some pending := by
  unfold settleRequests
  split_ifs with feasible occupied better
  · rw [get?_answerAll fun entry member => ?_]
    · exact found
    · obtain ⟨stored, satisfied⟩ := List.mem_filter.mp member
      rintro rfl
      have same := AssocMap.get?_eq_some_iff.mpr ((HashOrder.mem_iter order).mp stored)
      rw [found] at same
      cases same
      rw [unsatisfied feasible] at satisfied
      cases satisfied
  · exact found
  · cases s.feasible.get? (finite.key, finite.routerId) with
    | none => exact found
    | some source =>
      -- The request goes into an empty slot, so into another one.
      have apart : (finite.key, finite.routerId) ≠ slot := by
        rintro rfl
        exact occupied (AssocMap.containsKey_iff.mpr ⟨pending, found⟩)
      show (AssocMap.insert _ _ _).get? slot = some pending
      rw [AssocMap.get?_insert_of_ne _ _ apart]
      exact found
  · exact found

theorem settleRequests_answers (neighbour : NeighborKey) (metric : UInt16)
    {pending : PendingSeqnoRequest} {requester : NeighborKey}
    (feasible : s.sourceFeasible finite.key finite.routerId finite.distance = true)
    (found : s.pendingSeqno.get? slot = some pending)
    (satisfied : satisfies finite slot pending = true) (asked : pending.requester = some requester) :
    ∃ sent ∈ sentUpdates (settleRequests order neighbour finite metric now s).2,
      sent.interface = requester.interface ∧ sent.destination = requester.address ∧
        sent.update.key = some finite.key := by
  have listed : (slot, pending) ∈ (order.iter s.pendingSeqno.entries).filter
      fun entry => satisfies finite entry.1 entry.2 :=
    List.mem_filter.mpr
      ⟨(HashOrder.mem_iter order).mpr (AssocMap.get?_eq_some_iff.mp found), satisfied⟩
  have always : Chains fun (_ : Engine P M) (_ : List Action) _ => True :=
    ⟨fun _ => trivial, fun _ _ => trivial⟩
  have body : ∀ entry ∈ (order.iter s.pendingSeqno.entries).filter
        (fun entry => satisfies finite entry.1 entry.2),
      Meets (fun (_ : Engine P M) (_ : List Action) _ => True)
        (answerPending finite metric now entry) := fun _ _ _ => trivial
  obtain ⟨early, middle, late, _, actions, _⟩ := forEach_reaches always body listed s
  refine ⟨⟨requester.interface, requester.address, SendTiming.urgent now,
    { middle with pendingSeqno := middle.pendingSeqno.remove slot }.advertisement
      requester.interface finite.key finite.routerId finite.seqno metric⟩, ?_, rfl, rfl, rfl⟩
  have answered : (answerPending finite metric now (slot, pending) middle).2 =
      [.send requester.interface requester.address
        ⟨[.update ({ middle with pendingSeqno := middle.pendingSeqno.remove slot }.advertisement
          requester.interface finite.key finite.routerId finite.seqno metric)]⟩
        (SendTiming.urgent now)] := by
    simp only [answerPending, asked]
    rfl
  rw [settleRequests, if_pos feasible, actions, answered]
  simp [Action.sent]

section Metric
variable [NeighborMetric M]

/-- An admitted infeasible refresh of the selected route under the given router-id. -/
def refreshesUnder (s : Engine P M) (neighbour : NeighborKey) (update : ResolvedUpdate)
    (routerId : RouterId) : Bool :=
  (resolvedFinite update).any fun finite =>
    decide (finite.routerId = routerId) && s.admits neighbour finite &&
      s.ignoresRefresh neighbour finite

/-- A forwarded request outlives an Update that does not satisfy it exactly when
the Update is no infeasible refresh of the selected route under the same router-id;
one that satisfies it is answered to the requester exactly when it is admitted. -/
theorem forwarded_request_kept_iff (order : HashOrder) (neighbour : NeighborKey)
    (update : ResolvedUpdate) (now : UInt64) {s : Engine P M} {key : RouteKey}
    {routerId : RouterId} {pending : PendingSeqnoRequest} {requester : NeighborKey}
    (found : s.pendingSeqno.get? (key, routerId) = some pending)
    (asked : pending.requester = some requester) (named : update.key = some key) :
    ((∀ finite, resolvedFinite update = some finite →
        s.sourceFeasible finite.key finite.routerId finite.distance = false ∨
          finite.routerId = routerId ∧ finite.seqno ≠ pending.seqno ∧
            seqnoGt finite.seqno pending.seqno = false) →
      (((s.receiveUpdate order neighbour update now).engine.pendingSeqno.get? (key, routerId)).map
            (fun later => (later.requester, later.seqno)) =
          some (some requester, pending.seqno) ↔
        s.refreshesUnder neighbour update routerId = false)) ∧
      ∀ finite, resolvedFinite update = some finite →
        s.sourceFeasible finite.key finite.routerId finite.distance = true →
        finite.routerId = routerId →
        (finite.seqno = pending.seqno ∨ seqnoGt finite.seqno pending.seqno = true) →
        ((∃ sent ∈ sentUpdates (s.receiveUpdate order neighbour update now).actions,
            sent.interface = requester.interface ∧ sent.destination = requester.address ∧
              sent.update.key = some key) ↔
          s.admits neighbour finite = true) := by
  have content : ∀ finite, resolvedFinite update = some finite → finite.key = key :=
    fun finite resolved => Option.some.inj ((resolvedFinite_key resolved).symm.trans named)
  refine ⟨fun unsatisfied => ?_, ?_⟩
  · by_cases enters : ∃ finite, resolvedFinite update = some finite ∧
      s.admits neighbour finite = true
    · obtain ⟨finite, resolved, admitted⟩ := enters
      obtain ⟨state, _, received⟩ := receiveUpdate_admitted order resolved admitted
      have here := content finite resolved
      subst here
      rw [received, admitUpdate_eq]
      cases ignored : s.ignoresRefresh neighbour finite with
      | true =>
        have infeasible := (Bool.and_eq_true_iff.mp ignored).1
        rw [Bool.not_eq_true'] at infeasible
        obtain ⟨source, stored⟩ := sourceFeasible_false infeasible
        simp only [if_true, stored, recoveryRequest, originateSeqnoRequest,
          AssocMap.get?_insert, refreshesUnder, resolved, Option.any_some, admitted, ignored]
        by_cases same : finite.routerId = routerId
        · simp [same]
        · simp [same, found, asked]
      | false =>
        have kept : (settleRequests order neighbour finite (s.extendedMetric state finite) now
            s).1.pendingSeqno.get? (finite.key, routerId) = some pending := by
          refine get?_settleRequests order neighbour _ found fun feasible => ?_
          rcases unsatisfied finite resolved with infeasible | ⟨same, other, stale⟩
          · rw [feasible] at infeasible
            cases infeasible
          · simp [satisfies, same, stale, Ne.symm other]
        simp only [Bool.false_eq_true, if_false, storeCandidate, refreshesUnder, resolved,
          Option.any_some, ignored, Bool.and_false, iff_true]
        rw [kept, Option.map_some, asked]
    · have refused : ∀ finite, resolvedFinite update = some finite →
          s.admits neighbour finite = false := by
        intro finite resolved
        rw [← Bool.not_eq_true]
        exact fun admitted => enters ⟨finite, resolved, admitted⟩
      rw [(receiveUpdate_refused order s refused).1, found, Option.map_some, asked]
      refine iff_of_true rfl ?_
      cases resolved : resolvedFinite update with
      | none => simp [refreshesUnder, resolved]
      | some finite => simp [refreshesUnder, resolved, refused finite resolved]
  · intro finite resolved feasible same newer
    constructor
    · rintro ⟨sent, listed, -⟩
      by_contra refused
      rw [Bool.not_eq_true] at refused
      have silent : (s.receiveUpdate order neighbour update now).actions = [] := by
        refine (receiveUpdate_refused order s fun other content => ?_).2
        cases resolved.symm.trans content
        exact refused
      rw [silent] at listed
      cases listed
    · intro admitted
      obtain ⟨state, _, received⟩ := receiveUpdate_admitted order resolved admitted
      have here := content finite resolved
      subst here
      have current : s.ignoresRefresh neighbour finite = false := by simp [ignoresRefresh, feasible]
      rw [received, admitUpdate_eq, current]
      refine settleRequests_answers order neighbour _ feasible found ?_ asked
      rcases newer with equal | newer
      · simp [satisfies, equal]
      · simp [satisfies, newer]

end Metric

section Concrete
open Conformance

/-- Two neighbours, one behind the selected route and one that asked for a newer
sequence number of it. -/
def askedThrough : List (Event BuiltinProfile) :=
  [.interfaceUp (link 1) [] 0,
    .interfaceUp (link 2) [] 0,
    packet (link 1) (address 2) (greeting 96) 1,
    packet (link 2) (address 3) (greeting 96) 1,
    packet (link 1) (address 2) [routeUpdate destination (address 2) (nodeId 1) 100 0] 2,
    packet (link 2) (address 3) [.seqnoRequest destination 101 64 (nodeId 1) []] 3]

def numbered (source : IpAddr) (seqno : UInt16) : ResolvedUpdate :=
  ⟨some destination, some (nodeId 1), some source, 1600, seqno, 0, false, []⟩

/-- The forwarded request outlives an older Update, and the number asked for is
passed on once it arrives. -/
theorem forwarded_request_is_answered :
    ∃ s : Harness, (∃ history, RunOf anyEvent history s) ∧
      s.pendingSeqno.containsKey (destination, nodeId 1) = true ∧
      (((s.receiveUpdate HashOrder.stored ⟨link 2, address 3⟩
          (numbered (address 3) 99) 4).engine.pendingSeqno.get?
            (destination, nodeId 1)).map fun later => (later.requester, later.seqno)) =
        some (some ⟨link 2, address 3⟩, 101) ∧
      ∃ sent ∈ sentUpdates (s.receiveUpdate HashOrder.stored ⟨link 1, address 2⟩
          (numbered (address 2) 101) 4).actions,
        sent.interface = link 2 ∧ sent.destination = address 3 ∧
          sent.update.key = some destination := by
  obtain ⟨history, s, run, stored, infeasible, apart, feasible, admitted⟩ :=
    run_of_checked_play anyEvent (harness (nodeId 0)) askedThrough
    (fun _ (s : Harness) =>
      (s.pendingSeqno.get? (destination, nodeId 1)).any (fun pending =>
          decide (pending.requester = some ⟨link 2, address 3⟩ ∧ pending.seqno = 101)) = true ∧
        s.sourceFeasible destination (nodeId 1) ⟨99, 0⟩ = false ∧
        s.refreshesUnder ⟨link 2, address 3⟩
          (numbered (address 3) 99) (nodeId 1) = false ∧
        s.sourceFeasible destination (nodeId 1) ⟨101, 0⟩ = true ∧
        s.admits ⟨link 1, address 2⟩
          ⟨destination, nodeId 1, address 2, 1600, 101, 0⟩ = true)
    rfl (by decide +kernel)
  obtain ⟨pending, found, about⟩ := (Option.any_eq_true _ _).mp stored
  obtain ⟨asked, number⟩ := of_decide_eq_true about
  refine ⟨s, ⟨history, run⟩, AssocMap.containsKey_iff.mpr ⟨pending, found⟩, ?_, ?_⟩
  · rw [← number]
    refine ((forwarded_request_kept_iff HashOrder.stored ⟨link 2, address 3⟩
      (numbered (address 3) 99) 4 found asked rfl).1
        ?_).mpr apart
    rintro finite ⟨⟩
    exact Or.inl infeasible
  · exact ((forwarded_request_kept_iff HashOrder.stored ⟨link 1, address 2⟩
      (numbered (address 2) 101) 4 found asked rfl).2
        _ rfl feasible rfl (Or.inl number.symm)).mpr admitted

/-- A worse Update over the selected route is infeasible, and the request the node
makes on it takes the slot of the one it had forwarded: the requester is lost. -/
theorem infeasible_refresh_takes_the_slot :
    ∃ (history : List (Event BuiltinProfile × List Action)) (before after : Harness)
        (actions : List Action),
      RunOf anyEvent history before ∧
        Step anyEvent before
          (packet (link 1) (address 2) [routeUpdate destination (address 2) (nodeId 1) 100 200] 4)
          actions after ∧
        ((before.pendingSeqno.get? (destination, nodeId 1)).map fun earlier =>
          (earlier.requester, earlier.seqno)) = some (some ⟨link 2, address 3⟩, 101) ∧
        before.sourceFeasible destination (nodeId 1) ⟨100, 200⟩ = false ∧
        ((after.pendingSeqno.get? (destination, nodeId 1)).map fun later =>
          (later.requester, later.seqno)) = some (none, 101) := by
  exact step_of_checked_play anyEvent
    (harness (nodeId 0)) askedThrough
    (packet (link 1) (address 2) [routeUpdate destination (address 2) (nodeId 1) 100 200] 4) _ rfl (by decide +kernel)

end Concrete

end Engine

end BabelRs
