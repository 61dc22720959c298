import Mathlib.Data.List.Basic

/-!
# Runs of a transition system with outputs

A run is its history of labels and outputs together with the state it reached.
`Run.invariant` is the induction every safety result goes through.
-/

set_option autoImplicit false

namespace BabelRs.Lib

universe u v w

variable {S : Type w} {E : Type v} {O : Type u}

/-- The histories and states reachable from a start state. -/
inductive Run (start : S → Prop) (step : S → E → List O → S → Prop) :
    List (E × List O) → S → Prop
  | start {s : S} (initial : start s) : Run start step [] s
  | step {history : List (E × List O)} {s t : S} {event : E} {outputs : List O}
      (before : Run start step history s) (taken : step s event outputs t) :
      Run start step (history ++ [(event, outputs)]) t

namespace Run

variable {start : S → Prop} {step : S → E → List O → S → Prop}

/-- What holds at the start and survives every step holds of every run. -/
theorem invariant (Inv : List (E × List O) → S → Prop)
    (initial : ∀ s, start s → Inv [] s)
    (kept : ∀ history s event outputs t, Inv history s → step s event outputs t →
      Inv (history ++ [(event, outputs)]) t)
    {history : List (E × List O)} {s : S} (run : Run start step history s) : Inv history s := by
  induction run with
  | start begins => exact initial _ begins
  | step before taken ih => exact kept _ _ _ _ _ ih taken

end Run

end BabelRs.Lib
