import Mathlib.Data.List.Basic

/-!
# Outputs read in order

A reader of a list of outputs learns something from each of them: `tell` says what
is known after an output.  `Tracked` says that every output fits what was known when
it was emitted.
-/

set_option autoImplicit false

namespace BabelRs.Lib

variable {K A : Type}

def Tracked (tell : K → A → K) (fits : K → A → Prop) : K → List A → Prop
  | _, [] => True
  | known, output :: rest => fits known output ∧ Tracked tell fits (tell known output) rest

variable {tell : K → A → K} {fits : K → A → Prop} {known : K}

theorem tracked_append {first second : List A} :
    Tracked tell fits known (first ++ second) ↔
      Tracked tell fits known first ∧ Tracked tell fits (first.foldl tell known) second := by
  induction first generalizing known with
  | nil => simp [Tracked]
  | cons output rest ih => simp only [List.cons_append, Tracked, ih, List.foldl_cons, and_assoc]

theorem foldl_of_constant {outputs : List A}
    (constant : ∀ output ∈ outputs, tell known output = known) :
    outputs.foldl tell known = known := by
  induction outputs with
  | nil => rfl
  | cons output rest ih =>
    rw [List.foldl_cons, constant output List.mem_cons_self]
    exact ih fun other member => constant other (List.mem_cons_of_mem _ member)

theorem tracked_of_constant {outputs : List A}
    (constant : ∀ output ∈ outputs, tell known output = known)
    (each : ∀ output ∈ outputs, fits known output) : Tracked tell fits known outputs := by
  induction outputs with
  | nil => trivial
  | cons output rest ih =>
    refine ⟨each output List.mem_cons_self, ?_⟩
    rw [constant output List.mem_cons_self]
    exact ih (fun other member => constant other (List.mem_cons_of_mem _ member))
      fun other member => each other (List.mem_cons_of_mem _ member)

theorem Tracked.at {earlier later : List A} {output : A}
    (tracked : Tracked tell fits known (earlier ++ output :: later)) :
    fits (earlier.foldl tell known) output :=
  (tracked_append.mp tracked).2.1

end BabelRs.Lib
