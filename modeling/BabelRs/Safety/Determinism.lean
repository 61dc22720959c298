import BabelRs.Safety.Policy
import BabelRs.Safety.Switching
import Mathlib.Data.Prod.Lex

/-!
# Route selection and the enumeration order

Ties of `candidate_order` and the search for the current route are settled by the
order in which the candidates are enumerated.  The routes chosen do not depend on it
as long as the candidates of a key differ in router-id, interface or next hop.  That is
so in every run in which no Update repeats these for a key while another neighbour's
candidate holds them.
-/

set_option autoImplicit false

namespace BabelRs

open Lib

/-! ## One list of contenders -/

namespace Candidate

def rank (candidate : Candidate) : ℕ ×ₗ ℕ ×ₗ InterfaceName ×ₗ ℕ :=
  toLex (candidate.metric.toNat, toLex (candidate.routerId.octets.toNat,
    toLex (candidate.interface, candidate.nextHop.code)))

theorem order_lt_iff {left right : Candidate} :
    order left right = .lt ↔ left.rank < right.rank := by
  simp only [order, compareAddress, rank, Ordering.then_eq_lt, compare_lt_iff_lt,
    compare_eq_iff_eq, Prod.Lex.toLex_lt_toLex]

theorem best_le (first : Candidate) (rest : List Candidate) :
    ∀ candidate ∈ first :: rest, (best first rest).rank ≤ candidate.rank := by
  unfold best
  induction rest generalizing first with
  | nil => simp
  | cons next rest ih =>
    intro candidate member
    rw [List.foldl_cons]
    split_ifs with less
    · have below := order_lt_iff.mp less
      rcases List.mem_cons.mp member with rfl | member
      · exact (ih next next List.mem_cons_self).trans below.le
      · exact ih next candidate member
    · have above := not_lt.mp fun lower => less (order_lt_iff.mpr lower)
      rcases List.mem_cons.mp member with rfl | member
      · exact ih candidate candidate List.mem_cons_self
      · rcases List.mem_cons.mp member with rfl | member
        · exact (ih first first List.mem_cons_self).trans above
        · exact ih first candidate (List.mem_cons_of_mem _ member)

theorem eq_of_rank {left right : Candidate} (same : left.rank = right.rank) :
    left.metric = right.metric ∧ left.identity = right.identity := by
  simp only [rank, EmbeddingLike.apply_eq_iff_eq, Prod.mk.injEq] at same
  obtain ⟨metric, router, interface, hop⟩ := same
  refine ⟨UInt16.toNat_inj.mp metric, ?_⟩
  have routerEq : left.routerId = right.routerId := by
    have octets := BitVec.eq_of_toNat_eq router
    cases one : left.routerId
    cases two : right.routerId
    simp only [one, two] at octets
    subst octets
    rfl
  rw [identity, identity, routerEq, interface, IpAddr.code_injective hop]

theorem Faded.identity {candidate old : Candidate} (faded : candidate.Faded old) :
    candidate.identity = old.identity := by
  rw [Candidate.identity, Candidate.identity, faded.routerId, faded.nextHop, faded.interface]

end Candidate

namespace Engine

/-- A round sees the same of every arrangement of contenders with distinct identities. -/
theorem roundOf_perm (now : UInt64) (before : Option SelectedRoute) {first second : List Candidate}
    (rearranged : first.Perm second)
    (distinct : ∀ one ∈ first, ∀ two ∈ first, one.identity = two.identity → one = two) :
    roundOf now before first = roundOf now before second := by
  have current : ∀ selected : SelectedRoute,
      (first.find? fun route => route.realises selected) =
        second.find? fun route => route.realises selected := fun selected =>
    find?_perm rearranged fun one inside two also realises alike =>
      distinct one inside two also ((realises_iff.mp realises).trans (realises_iff.mp alike).symm)
  simp only [roundOf, current, Hysteresis.Round.mk.injEq, true_and]
  cases first with
  | nil => rw [List.nil_perm.mp rearranged]
  | cons one others =>
    cases second with
    | nil => exact absurd (List.perm_nil.mp rearranged) (List.cons_ne_nil _ _)
    | cons two rest =>
      obtain ⟨metric, identity⟩ := Candidate.eq_of_rank (le_antisymm
        (Candidate.best_le one others _ (rearranged.mem_iff.mpr (Candidate.best_mem two rest)))
        (Candidate.best_le two rest _ (rearranged.mem_iff.mp (Candidate.best_mem one others))))
      simp only [metric, identity]

variable {P M : Type}
variable {s t : Engine P M} {event : Event P}

/-! ## One state -/

/-- The candidates of a key have distinct identities. -/
def Apart (s : Engine P M) : Prop :=
  ∀ first second one two, s.candidates.get? first = some one → s.candidates.get? second = some two →
    one.key = two.key → one.identity = two.identity → first = second

theorem Apart.contenders (apart : Apart s) {order : HashOrder} {key : RouteKey}
    {one two : Candidate} (inside : one ∈ s.contenders order key)
    (also : two ∈ s.contenders order key) (same : one.identity = two.identity) : one = two := by
  obtain ⟨stored, _, named⟩ := mem_contenders.mp inside
  obtain ⟨kept, _, called⟩ := mem_contenders.mp also
  obtain ⟨⟨first, _⟩, listed, rfl⟩ := List.mem_map.mp stored
  obtain ⟨⟨second, _⟩, present, rfl⟩ := List.mem_map.mp kept
  rw [← AssocMap.get?_eq_some_iff] at listed present
  have entry := apart first second _ _ listed present (named.trans called.symm) same
  rw [entry] at listed
  exact Option.some.inj (listed.symm.trans present)

/-- Among distinct identities the choice is the same under every order. -/
theorem Apart.selected (apart : Apart s) (now : UInt64) (first second : HashOrder) :
    (s.reselectState first now).selected = (s.reselectState second now).selected := by
  refine OrdMap.ext_get? fun key => ?_
  have rearranged : (s.contenders first key).Perm (s.contenders second key) :=
    ((((first.perm _).trans (second.perm _).symm).map _).filter _).filter _
  have memory : (s.reselectState first now).memory key = (s.reselectState second now).memory key := by
    rw [reselectState_memory, reselectState_memory, round, round,
      roundOf_perm now _ rearranged fun _ inside _ also => apart.contenders inside also]
  have identities := congrArg Hysteresis.State.chosen memory
  simp only [Engine.memory, Selection.memory] at identities
  cases left : (s.reselectState first now).selected.get? key with
  | none =>
    rw [left] at identities
    exact (Option.map_eq_none_iff.mp identities.symm).symm
  | some route =>
    rw [left] at identities
    obtain ⟨other, right, same⟩ := Option.map_eq_some_iff.mp identities.symm
    obtain ⟨one, stored, usable, named, rfl⟩ := reselectState_chosen first now s left
    obtain ⟨two, kept, good, called, rfl⟩ := reselectState_chosen second now s right
    have member : one ∈ s.contenders first key := mem_contenders.mpr ⟨stored, usable, named⟩
    rw [right, apart.contenders member (mem_contenders.mpr ⟨kept, good, called⟩) same.symm]

/-! ## Runs -/

/-- A finite Update of the event that would be stored under the entry. -/
structure Offers (event : Event P) (entry : RouteKey × NeighborKey) (candidate : Candidate)
    (tlvs : List Tlv) (update : ResolvedUpdate) (finite : FiniteUpdate) : Prop where
  received : event.received = some (entry.2, tlvs)
  member : .update update ∈ tlvs
  resolved : resolvedFinite update = some finite
  filed : entry.1 = finite.key
  key : candidate.key = finite.key
  identity : candidate.identity = (finite.routerId, finite.nextHop, entry.2.interface)

/-- Every candidate was there before under its entry and name, or the event offers it. -/
def Descends (event : Event P) (s t : Engine P M) : Prop :=
  ∀ entry candidate, t.candidates.get? entry = some candidate →
    (∃ old, s.candidates.get? entry = some old ∧ candidate.key = old.key ∧
      candidate.identity = old.identity) ∨ ∃ tlvs update finite,
        Offers event entry candidate tlvs update finite

theorem Descends.of_fades (fades : Fades s t) :
    Descends event s t := by
  intro entry candidate found
  obtain ⟨old, stored, faded⟩ := fades entry candidate found
  exact Or.inl ⟨old, stored, faded.key, faded.identity⟩

theorem Descends.of_candidates (same : t.candidates = s.candidates) :
    Descends event s t := fun _ candidate found =>
  Or.inl ⟨candidate, same ▸ found, rfl, rfl⟩

theorem Descends.trans {middle : Engine P M} (first : Descends event s middle)
    (second : Descends event middle t) : Descends event s t := by
  intro entry candidate found
  rcases second entry candidate found with ⟨old, stored, key, identity⟩ | offered
  · rcases first entry old stored with ⟨older, kept, named, known⟩ |
      ⟨tlvs, update, finite, offers⟩
    · exact Or.inl ⟨older, kept, key.trans named, identity.trans known⟩
    · exact Or.inr ⟨tlvs, update, finite, { offers with
        key := key.trans offers.key
        identity := identity.trans offers.identity }⟩
  · exact Or.inr offered

theorem Descends.chains (event : Event P) :
    Effect.Chains fun (s : Engine P M) (_ : List Action) t => Descends event s t :=
  ⟨fun _ => .of_candidates rfl, .trans⟩

/-- No Update of the event has the key and the identity of a candidate that it does not
replace. -/
def offersApart (s : Engine P M) (event : Event P) : Bool :=
  match event.received with
  | none => true
  | some (neighbour, tlvs) => tlvs.all fun tlv =>
    match tlv with
    | .update update => (resolvedFinite update).all fun finite =>
      s.candidates.entries.all fun entry =>
        entry.2.key != finite.key ||
          entry.2.identity != (finite.routerId, finite.nextHop, neighbour.interface) ||
          entry.1 == (finite.key, neighbour)
    | _ => true

theorem Offers.entry_eq {entry : RouteKey × NeighborKey} {candidate : Candidate} {tlvs : List Tlv}
    {update : ResolvedUpdate} {finite : FiniteUpdate}
    (offers : Offers event entry candidate tlvs update finite)
    (permitted : offersApart s event = true) {other : RouteKey × NeighborKey} {old : Candidate}
    (stored : s.candidates.get? other = some old) (key : old.key = candidate.key)
    (identity : old.identity = candidate.identity) : other = entry := by
  simp only [offersApart, offers.received, List.all_eq_true] at permitted
  have free := permitted _ offers.member
  simp only [offers.resolved, Option.all_some, List.all_eq_true] at free
  have apart := free _ (AssocMap.get?_eq_some_iff.mp stored)
  simp only [key.trans offers.key, identity.trans offers.identity, bne_self_eq_false,
    Bool.false_or, beq_iff_eq] at apart
  rw [apart, ← offers.filed]

theorem Descends.apart (descends : Descends event s t) (permitted : offersApart s event = true)
    (apart : Apart s) : Apart t := by
  intro first second one two found present key identity
  rcases descends first one found with ⟨old, stored, named, known⟩ | ⟨_, _, _, offers⟩
  · rcases descends second two present with ⟨other, kept, called, seen⟩ | ⟨_, _, _, offers⟩
    · exact apart first second old other stored kept (named.symm.trans (key.trans called))
        (known.symm.trans (identity.trans seen))
    · exact offers.entry_eq permitted stored (named.symm.trans key) (known.symm.trans identity)
  · rcases descends second two present with ⟨other, kept, called, seen⟩ | ⟨_, _, _, others⟩
    · exact (offers.entry_eq permitted kept (called.symm.trans key.symm)
        (seen.symm.trans identity.symm)).symm
    · -- Both come from the packet, so from one neighbour.
      have sender := congrArg (Option.map Prod.fst) (offers.received.symm.trans others.received)
      exact Prod.ext (offers.filed.trans (offers.key.symm.trans
        (key.trans (others.key.trans others.filed.symm)))) (Option.some.inj sender)

variable [NeighborMetric M] [MetricProfile P M]

theorem moves_descends (event : Event P) :
    Moves event fun (s : Engine P M) _ t => Descends event s t where
  prelude := fun move => .of_fades move.fades
  reselects := fun move => .of_candidates move.tables.candidates
  output := fun move => .of_candidates move.coda.sameRoutes.candidates
  observation := fun _ move => .of_fades move.senses.2.fades
  tlv := by
    intro neighbour tlvs tlv received member order state entry candidate found
    obtain ⟨_, _, effect⟩ := receiveTlv_effect order neighbour event.now tlv state
    rcases effect.candidates found with
      ⟨old, stored, faded⟩ | ⟨update, finite, metric, rfl, resolved, _, rfl, rfl⟩
    · exact Or.inl ⟨old, stored, faded.key, faded.identity⟩
    · exact Or.inr ⟨tlvs, update, finite, received, member, resolved, rfl, rfl, rfl⟩

theorem RunOf.apart {history : List (Event P × List Action)} (run : RunOf offersApart history s) :
    Apart s := by
  refine run.invariant (fun _ s => Apart s) ?_ ?_
  · intro s starts
    obtain ⟨config, _, rfl⟩ := starts.eq_initial
    intro first second one two found
    cases found
  · rintro history s event actions t apart ⟨permitted, order, handled⟩
    obtain ⟨_, _, rfl⟩ := tryHandle_ok handled
    obtain ⟨start, change, descends⟩ := (handleValidated_dispatched order event s).fold
      (Descends.chains event) (moves_descends event) fun _ _ _ _ edit =>
        .of_candidates edit.routes.2.2.1
    exact ((Descends.of_fades change.reconfigures.fades).trans descends).apart permitted apart

/-- The routes that `reselect` chooses do not depend on the order in which it meets the
candidates. -/
theorem choice_ignores_hash_order {history : List (Event P × List Action)}
    (run : RunOf offersApart history s) (now : UInt64) (first second : HashOrder) :
    (reselect first now s).1.selected = (reselect second now s).1.selected := by
  rw [reselect_selected, reselect_selected]
  exact run.apart.selected now first second

end Engine

namespace Conformance

open Engine

def reversed : HashOrder := ⟨List.reverse, List.reverse_perm⟩

/-- Two neighbours of one link announce a route of one router-id. -/
def twoNeighbours (hop other : IpAddr) : List (Event BuiltinProfile) :=
  [.interfaceUp (link 1) [] 0,
    packet (link 1) (address 2) (greeting 96) 1,
    packet (link 1) (address 3) (greeting 96) 1,
    packet (link 1) (address 2) [routeUpdate destination hop (nodeId 1) 100 0] 2,
    packet (link 1) (address 3) [routeUpdate destination other (nodeId 1) 101 0] 3]

theorem own_hops_ignore_hash_order :
    ∃ history, ∃ s : Harness, RunOf offersApart history s ∧ s.candidates.entries.length = 2 ∧
      (reselect HashOrder.stored 4 s).1.selected =
        (reselect reversed 4 s).1.selected := by
  obtain ⟨history, s, run, checked⟩ := run_of_checked_play offersApart (harness (nodeId 0))
    (twoNeighbours (address 2) (address 3))
    (fun _ (s : Harness) => s.candidates.entries.length = 2) rfl (by decide +kernel)
  exact ⟨history, s, run, checked, choice_ignores_hash_order run 4 _ _⟩

/-- Both over a third router: the sequence number chosen is that of the neighbour
enumerated first. -/
theorem shared_hop_follows_hash_order :
    ∃ history, ∃ s : Harness, RunOf anyEvent history s ∧
      (reselect HashOrder.stored 4 s).1.selected ≠
        (reselect reversed 4 s).1.selected := by
  obtain ⟨history, s, run, checked⟩ := run_of_checked_play anyEvent (harness (nodeId 0))
    (twoNeighbours (address 9) (address 9))
    (fun _ (s : Harness) =>
      ((reselect HashOrder.stored 4 s).1.selected.get? destination).map SelectedRoute.seqno ≠
        ((reselect reversed 4 s).1.selected.get? destination).map SelectedRoute.seqno)
    rfl (by decide +kernel)
  refine ⟨history, s, run, fun same => checked ?_⟩
  rw [same]

end Conformance

end BabelRs
