import Mathlib.Algebra.Divisibility.Basic
import Mathlib.Algebra.Group.Nat.Defs
import Mathlib.Tactic.Common

/-!
# Heartbeats counted in a shift register

A monitor that waits `grace` for the next heartbeat and then shifts its register once per
missed `period`.  A bit of the last heartbeat survives `width` shifts at most, so a register
that is not empty dates the last heartbeat.
-/

set_option autoImplicit false

namespace BabelRs.Lib

/-- The deadline of a monitor whose last heartbeat came at `received`, and its register. -/
def Monitors (grace period width received deadline register : Nat) : Prop :=
  ∃ missed, deadline = received + grace + period * missed ∧ 2 ^ min missed width ∣ register

variable {grace period width received deadline register : Nat}

theorem Monitors.started (grace period width received register : Nat) :
    Monitors grace period width received (received + grace) register :=
  ⟨0, rfl, by simp⟩

/-- The register empties with its last shift. -/
theorem Monitors.shift (monitors : Monitors grace period width received deadline register)
    (count : Nat) :
    Monitors grace period width received (deadline + period * count)
      (register * 2 ^ count % 2 ^ width) := by
  obtain ⟨missed, rfl, divides⟩ := monitors
  refine ⟨missed + count, by rw [Nat.mul_add, Nat.add_assoc], ?_⟩
  have shifted : 2 ^ min (missed + count) width ∣ register * 2 ^ count :=
    calc 2 ^ min (missed + count) width
        ∣ 2 ^ (min missed width + count) := Nat.pow_dvd_pow 2 (by omega)
      _ = 2 ^ min missed width * 2 ^ count := Nat.pow_add 2 _ _
      _ ∣ register * 2 ^ count := Nat.mul_dvd_mul_right divides _
  exact (Nat.dvd_mod_iff (Nat.pow_dvd_pow 2 (Nat.min_le_right _ _))).mpr shifted

/-- A register that is not empty, with its deadline ahead, has a recent heartbeat. -/
theorem Monitors.recent (monitors : Monitors grace period width received deadline register)
    {now : Nat} (filled : register ≠ 0) (bounded : register < 2 ^ width) (ahead : now < deadline) :
    now < received + grace + period * (width - 1) := by
  obtain ⟨missed, rfl, divides⟩ := monitors
  have few : missed < width := by
    by_contra many
    rw [Nat.min_eq_right (Nat.le_of_not_lt many)] at divides
    exact filled (Nat.eq_zero_of_dvd_of_lt divides bounded)
  have shorter : period * missed ≤ period * (width - 1) := Nat.mul_le_mul_left _ (by omega)
  omega

/-- Counting the periods missed at `now` moves the deadline past it, by no more than one. -/
theorem deadline_passed {now : Nat} (positive : 0 < period) (due : deadline ≤ now) :
    now < deadline + period * (1 + (now - deadline) / period) ∧
      deadline + period * (1 + (now - deadline) / period) ≤ now + period := by
  have below := Nat.lt_mul_div_succ (now - deadline) positive
  have above := Nat.mul_div_le (now - deadline) period
  rw [Nat.mul_add, Nat.mul_one] at *
  omega

/-- Counting at an earlier time as well counts no other period. -/
theorem missed_add {early now : Nat} (positive : 0 < period) (due : deadline ≤ early)
    (later : early ≤ now) :
    let next := deadline + period * (1 + (early - deadline) / period)
    1 + (now - deadline) / period =
      1 + (early - deadline) / period + if now < next then 0 else 1 + (now - next) / period := by
  intro next
  have grows := Nat.div_le_div_right (c := period) (Nat.sub_le_sub_right later deadline)
  split_ifs with short
  · have below : now - deadline < (1 + (early - deadline) / period) * period := by
      rw [Nat.mul_comm]
      omega
    have few := (Nat.div_lt_iff_lt_mul positive).mpr below
    omega
  · have split : now - deadline = now - next + period * (1 + (early - deadline) / period) := by
      omega
    rw [split, Nat.add_mul_div_left _ _ positive]
    omega

/-! ## The register of a list of heartbeats, newest first -/

def beatBits : List Bool → Nat
  | [] => 0
  | beat :: older => beat.toNat + 2 * beatBits older

variable (beats : List Bool)

theorem beatBits_half (beat : Bool) : beatBits (beat :: beats) / 2 = beatBits beats := by
  have bit := beat.toNat_lt
  rw [beatBits]
  omega

theorem beatBits_lt : beatBits beats < 2 ^ beats.length := by
  induction beats with
  | nil => decide
  | cons beat older ih =>
    have bit := beat.toNat_lt
    rw [beatBits, List.length_cons, Nat.pow_succ]
    omega

theorem beatBits_missed (count : Nat) :
    beatBits (List.replicate count false ++ beats) = beatBits beats * 2 ^ count := by
  induction count with
  | zero => simp
  | succ count ih =>
    rw [List.replicate_succ, List.cons_append, beatBits, ih, Nat.pow_succ',
      Nat.mul_left_comm]
    exact Nat.zero_add _

theorem beatBits_drop (count : Nat) :
    beatBits (beats.drop count) = beatBits beats / 2 ^ count := by
  induction count generalizing beats with
  | zero => simp
  | succ count ih =>
    cases beats with
    | nil => simp [beatBits]
    | cons beat older =>
      rw [List.drop_succ_cons, ih, Nat.pow_succ', ← Nat.div_div_eq_div_mul, beatBits_half]

theorem beatBits_take (width : Nat) : beatBits (beats.take width) = beatBits beats % 2 ^ width := by
  induction width generalizing beats with
  | zero => simp [beatBits, Nat.mod_one]
  | succ width ih =>
    cases beats with
    | nil => simp [beatBits]
    | cons beat older =>
      have bit := beat.toNat_lt
      rw [List.take_succ_cons, Nat.pow_succ', Nat.mod_mul, beatBits_half, beatBits, ih, beatBits]
      omega

end BabelRs.Lib
