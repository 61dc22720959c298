import Mathlib.Data.Nat.Notation
import Mathlib.Tactic.SplitIfs

/-!
# Leading bits

Words that agree on their first bits.  Agreement on more bits is agreement on fewer,
so two sets of words given by leading bits are nested or disjoint.
-/

set_option autoImplicit false

namespace BabelRs.Lib

variable {w : Nat}

/-- The words agree on their leading `len` bits. -/
def sameLeading (len : Nat) (first second : BitVec w) : Bool :=
  first >>> (w - len) == second >>> (w - len)

variable {len : Nat} {first second : BitVec w}

theorem sameLeading_iff :
    sameLeading len first second = true ↔
      ∀ i, w - len ≤ i → first.getLsbD i = second.getLsbD i := by
  rw [sameLeading, beq_iff_eq]
  constructor
  · intro same i above
    have bit := congrArg (fun word => word.getLsbD (i - (w - len))) same
    simpa [BitVec.getLsbD_ushiftRight, Nat.add_sub_cancel' above] using bit
  · intro agree
    apply BitVec.eq_of_getLsbD_eq
    intro i _
    simpa [BitVec.getLsbD_ushiftRight] using agree (w - len + i) (Nat.le_add_right _ _)

theorem sameLeading_symm (same : sameLeading len first second = true) :
    sameLeading len second first = true :=
  sameLeading_iff.mpr fun i above => (sameLeading_iff.mp same i above).symm

theorem sameLeading_trans {third : BitVec w} (left : sameLeading len first second = true)
    (right : sameLeading len second third = true) :
    sameLeading len first third = true :=
  sameLeading_iff.mpr fun i above =>
    (sameLeading_iff.mp left i above).trans (sameLeading_iff.mp right i above)

theorem sameLeading_mono {shorter : Nat} (le : shorter ≤ len)
    (same : sameLeading len first second = true) : sameLeading shorter first second = true :=
  sameLeading_iff.mpr fun i above => sameLeading_iff.mp same i (by omega)

/-- Words without bits beyond the leading ones are determined by them. -/
theorem eq_of_sameLeading (same : sameLeading len first second = true)
    (clear : first = first &&& (BitVec.allOnes w <<< (w - len)))
    (otherClear : second = second &&& (BitVec.allOnes w <<< (w - len))) : first = second := by
  apply BitVec.eq_of_getLsbD_eq
  intro i bound
  by_cases above : w - len ≤ i
  · exact sameLeading_iff.mp same i above
  · have hidden : (BitVec.allOnes w <<< (w - len)).getLsbD i = false := by
      simp [Nat.not_le.mp above]
    rw [clear, otherClear, BitVec.getLsbD_and, BitVec.getLsbD_and, hidden, Bool.and_false,
      Bool.and_false]

theorem sameLeading_masked (len : Nat) (word : BitVec w) :
    sameLeading len word (word &&& (BitVec.allOnes w <<< (w - len))) = true := by
  refine sameLeading_iff.mpr fun i above => ?_
  by_cases inside : i < w
  · simp [inside, Nat.not_lt.mpr above]
  · simp [BitVec.getLsbD_of_ge _ _ (Nat.not_lt.mp inside)]

end BabelRs.Lib
