import Mathlib.Data.List.Infix

/-!
# Operation sequences that may be interrupted

A sequence of atomic operations that stops early has run a prefix.  `During` says that
a property holds at every point where it can stop.
-/

set_option autoImplicit false

namespace BabelRs.Lib

variable {S O : Type} {run : S → O → S}

def During (run : S → O → S) (Inv : S → Prop) (s : S) (ops : List O) : Prop :=
  ∀ front, front <+: ops → Inv (front.foldl run s)

variable {Inv : S → Prop} {s : S} {ops : List O}

theorem During.mono {Wider : S → Prop} (during : During run Inv s ops)
    (weaker : ∀ t, Inv t → Wider t) : During run Wider s ops :=
  fun front early => weaker _ (during front early)

/-- What every operation of the sequence keeps holds throughout. -/
theorem during_of_kept (initial : Inv s) (kept : ∀ op ∈ ops, ∀ t, Inv t → Inv (run t op)) :
    During run Inv s ops := by
  rintro front ⟨back, rfl⟩
  have listed : ∀ op ∈ front, ∀ t, Inv t → Inv (run t op) := fun op member =>
    kept op (List.mem_append_left _ member)
  clear kept
  induction front generalizing s with
  | nil => exact initial
  | cons op rest ih =>
    exact ih (listed op List.mem_cons_self s initial)
      fun other member => listed other (List.mem_cons_of_mem _ member)

theorem During.append {first second : List O} (left : During run Inv s first)
    (right : During run Inv (first.foldl run s) second) :
    During run Inv s (first ++ second) := by
  intro front early
  rcases List.prefix_or_prefix_of_prefix early (List.prefix_append first second) with
    inside | ⟨later, rfl⟩
  · exact left front inside
  · rw [List.foldl_append]
    exact right later ((List.prefix_append_right_inj first).mp early)

end BabelRs.Lib
