import Mathlib.Data.List.Basic
import Mathlib.Order.Lattice

/-!
# Taking the earliest item of a list

`takeEarliest` removes the first of the items with the least key, as `min_by_key` and
`remove` do together.  Items in lanes that are each sorted by key leave their lane from
its front.
-/

set_option autoImplicit false

namespace BabelRs.Lib

variable {A K L : Type} [LinearOrder K] (key : A → K)

def takeEarliest : List A → Option (A × List A)
  | [] => none
  | item :: rest =>
    match takeEarliest rest with
    | none => some (item, [])
    | some (earliest, others) =>
      if key earliest < key item then some (earliest, item :: others) else some (item, rest)

variable {key}

variable {items : List A}

theorem takeEarliest_none : takeEarliest key items = none ↔ items = [] := by
  cases items with
  | nil => simp [takeEarliest]
  | cons item rest =>
    simp only [takeEarliest, reduceCtorEq, iff_false]
    split
    · simp
    · split <;> simp

variable {others : List A} {earliest : A}

/-- The item taken precedes what was before it strictly and what was after it weakly. -/
theorem takeEarliest_split (taken : takeEarliest key items = some (earliest, others)) :
    ∃ front back, items = front ++ earliest :: back ∧ others = front ++ back ∧
      (∀ item ∈ front, key earliest < key item) ∧ ∀ item ∈ back, key earliest ≤ key item := by
  induction items generalizing earliest others with
  | nil => cases taken
  | cons item rest ih =>
    rw [takeEarliest] at taken
    cases later : takeEarliest key rest with
    | none =>
      obtain rfl := takeEarliest_none.mp later
      cases taken
      exact ⟨[], [], rfl, rfl, by simp, by simp⟩
    | some best =>
      obtain ⟨candidate, remaining⟩ := best
      obtain ⟨front, back, rfl, rfl, before, after⟩ := ih later
      simp only [later] at taken
      split at taken
      · next earlier =>
          cases taken
          refine ⟨item :: front, back, rfl, rfl, ?_, after⟩
          intro other member
          rcases List.mem_cons.mp member with rfl | member
          · exact earlier
          · exact before other member
      · next notEarlier =>
          cases taken
          have least : key item ≤ key candidate := not_lt.mp notEarlier
          refine ⟨[], front ++ candidate :: back, rfl, rfl, by simp, ?_⟩
          intro other member
          rcases List.mem_append.mp member with member | member
          · exact least.trans (before other member).le
          · rcases List.mem_cons.mp member with rfl | member
            · exact least
            · exact least.trans (after other member)

section Lanes

variable [DecidableEq L] (key) (lane : A → L)

/-- In every lane the keys grow from front to back. -/
def LanesSorted (items : List A) : Prop :=
  items.Pairwise fun before after => lane before = lane after → key before ≤ key after

variable {key lane}

theorem LanesSorted.takeEarliest_lane (sorted : LanesSorted key lane items)
    (taken : takeEarliest key items = some (earliest, others)) :
    items.filter (fun item => lane item = lane earliest) =
      earliest :: others.filter (fun item => lane item = lane earliest) := by
  obtain ⟨front, back, rfl, rfl, before, -⟩ := takeEarliest_split taken
  -- a lane mate in front would be both strictly later and no later
  have alone : front.filter (fun item => lane item = lane earliest) = [] := by
    refine List.filter_eq_nil_iff.mpr fun item member sameLane => ?_
    have ordered := (List.pairwise_append.mp sorted).2.2 item member earliest (by simp)
    exact absurd (before item member) (not_lt.mpr (ordered (of_decide_eq_true sameLane)))
  simp [List.filter_append, alone]

theorem takeEarliest_other (taken : takeEarliest key items = some (earliest, others)) {other : L}
    (elsewhere : lane earliest ≠ other) :
    items.filter (fun item => lane item = other) =
      others.filter (fun item => lane item = other) := by
  obtain ⟨front, back, rfl, rfl, -, -⟩ := takeEarliest_split taken
  simp [List.filter_append, elsewhere]

theorem takeEarliest_sublist (taken : takeEarliest key items = some (earliest, others)) :
    others.Sublist items := by
  obtain ⟨front, back, rfl, rfl, -, -⟩ := takeEarliest_split taken
  exact (List.Sublist.refl front).append (List.sublist_cons_self _ _)

end Lanes

end BabelRs.Lib
