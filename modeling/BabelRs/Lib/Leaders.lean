import BabelRs.Lib.OrdMap

/-!
# The leader of every slot

Offers arrive one after the other.  A map keeps, for each slot, one offer whose rank
no other offer for the slot exceeds.
-/

set_option autoImplicit false

namespace BabelRs.Lib

variable {K V : Type} [LinearOrder K]

structure Leads (slot : V → K) (rank : V → Nat) (offers : List V) (leaders : OrdMap K V) : Prop where
  offered : ∀ key leader, leaders.get? key = some leader → leader ∈ offers ∧ slot leader = key
  best : ∀ offer ∈ offers, ∃ leader, leaders.get? (slot offer) = some leader ∧
    rank offer ≤ rank leader

namespace Leads

variable {slot : V → K} {rank : V → Nat} {offers : List V} {leaders : OrdMap K V} {offer : V}

theorem empty : Leads slot rank [] OrdMap.empty where
  offered := fun _ _ found => by cases found
  best := by simp

/-- An offer that takes its slot. -/
theorem insert (leads : Leads slot rank offers leaders)
    (wins : ∀ leader, leaders.get? (slot offer) = some leader → rank leader ≤ rank offer) :
    Leads slot rank (offers ++ [offer]) (leaders.insert (slot offer) offer) where
  offered := by
    intro key leader found
    rw [OrdMap.get?_insert] at found
    split_ifs at found with here
    · obtain rfl := Option.some.inj found
      exact ⟨by simp, here⟩
    · obtain ⟨member, placed⟩ := leads.offered key leader found
      exact ⟨List.mem_append_left _ member, placed⟩
  best := by
    intro other member
    rw [OrdMap.get?_insert]
    split_ifs with here
    · refine ⟨offer, rfl, ?_⟩
      rcases List.mem_append.mp member with earlier | new
      · obtain ⟨leader, found, bound⟩ := leads.best other earlier
        rw [← here] at found
        exact Nat.le_trans bound (wins leader found)
      · obtain rfl := List.mem_singleton.mp new
        exact Nat.le_refl _
    · rcases List.mem_append.mp member with earlier | new
      · exact leads.best other earlier
      · exact absurd (congrArg slot (List.mem_singleton.mp new).symm) here

/-- An offer that loses against the leader of its slot. -/
theorem keep (leads : Leads slot rank offers leaders) {leader : V}
    (found : leaders.get? (slot offer) = some leader) (loses : rank offer ≤ rank leader) :
    Leads slot rank (offers ++ [offer]) leaders where
  offered := by
    intro key other here
    obtain ⟨member, placed⟩ := leads.offered key other here
    exact ⟨List.mem_append_left _ member, placed⟩
  best := by
    intro other member
    rcases List.mem_append.mp member with earlier | new
    · exact leads.best other earlier
    · rw [List.mem_singleton.mp new]
      exact ⟨leader, found, loses⟩

theorem foldl {I : Type} {step : OrdMap K V → I → OrdMap K V} {offersOf : I → List V}
    (each : ∀ (offers : List V) (leaders : OrdMap K V) (item : I), Leads slot rank offers leaders →
      Leads slot rank (offers ++ offersOf item) (step leaders item))
    (items : List I) (leads : Leads slot rank offers leaders) :
    Leads slot rank (offers ++ items.flatMap offersOf) (items.foldl step leaders) := by
  induction items generalizing offers leaders with
  | nil => simpa using leads
  | cons item rest ih =>
    rw [List.flatMap_cons, ← List.append_assoc, List.foldl_cons]
    exact ih (each offers leaders item leads)

theorem mem_values (leads : Leads slot rank offers leaders) {leader : V} :
    leader ∈ leaders.values ↔ leaders.get? (slot leader) = some leader := by
  constructor
  · intro member
    obtain ⟨⟨key, value⟩, listed, rfl⟩ := List.mem_map.mp member
    have found := OrdMap.get?_eq_some_iff.mpr listed
    rw [(leads.offered key value found).2]
    exact found
  · intro found
    exact List.mem_map.mpr ⟨_, OrdMap.get?_eq_some_iff.mp found, rfl⟩

end Leads

end BabelRs.Lib
