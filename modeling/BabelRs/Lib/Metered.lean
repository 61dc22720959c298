import BabelRs.Lib.Checked

/-!
# Computations that count the passes of their loops

A metered computation is a checked one together with the number of passes that the loops it
ran had made when it returned, failed or panicked.
-/

set_option autoImplicit false

namespace BabelRs.Lib

structure Metered (E A : Type) where
  result : Checked E A
  passes : Nat

namespace Metered

variable {E A B : Type}

/-- Code without a loop. -/
def check (result : Checked E A) : Metered E A := ⟨result, 0⟩

/-- The start of a pass. -/
def pass : Metered E Unit := ⟨.ok (), 1⟩

def andThen (first : Metered E A) (next : A → Metered E B) : Metered E B :=
  match first.result with
  | .ok value => ⟨(next value).result, first.passes + (next value).passes⟩
  | .error fault => ⟨.error fault, first.passes⟩

instance monad : Monad (Metered E) where
  pure value := check (.ok value)
  bind := andThen

@[simp] theorem check_ok_bind (value : A) (next : A → Metered E B) :
    (check (.ok value) >>= next) = next value := by
  change (⟨(next value).result, 0 + (next value).passes⟩ : Metered E B) = _
  rw [Nat.zero_add]

/-! ## Results -/

@[simp] theorem result_check (result : Checked E A) : (check result).result = result := rfl

@[simp] theorem result_pure (value : A) : (pure value : Metered E A).result = .ok value := rfl

@[simp] theorem result_bind (first : Metered E A) (next : A → Metered E B) :
    (first >>= next).result = first.result >>= fun value => (next value).result := by
  change (andThen first next).result = _
  unfold andThen
  cases first.result <;> rfl

@[simp] theorem result_pass_bind (next : Unit → Metered E A) :
    (pass >>= next).result = (next ()).result := rfl

@[simp] theorem result_ite (c : Prop) [Decidable c] (yes no : Metered E A) :
    (if c then yes else no).result = if c then yes.result else no.result :=
  apply_ite result c yes no

/-! ## Passes -/

variable {next : A → Metered E B} {bound : Nat}

theorem passes_bind_le {first : Metered E A} {spent left : Nat} (before : first.passes ≤ spent)
    (after : ∀ value, first.result = .ok value → (next value).passes ≤ left) :
    (first >>= next).passes ≤ spent + left := by
  change (andThen first next).passes ≤ _
  unfold andThen
  cases returned : first.result with
  | error fault => exact Nat.le_trans before (Nat.le_add_right _ _)
  | ok value => exact Nat.add_le_add before (after value returned)

theorem passes_check_bind_le {result : Checked E A}
    (after : ∀ value, result = .ok value → (next value).passes ≤ bound) :
    (check result >>= next).passes ≤ bound := by
  cases result with
  | error fault => exact Nat.zero_le bound
  | ok value =>
    change 0 + (next value).passes ≤ bound
    rw [Nat.zero_add]
    exact after value rfl

/-- Behind the last loop nothing is counted. -/
theorem passes_last_le {first : Metered E A} (before : first.passes ≤ bound)
    (after : ∀ value, (next value).passes ≤ 0) : (first >>= next).passes ≤ bound := by
  simpa using passes_bind_le before fun value _ => after value

end Metered

end BabelRs.Lib
