import BabelRs.Lib.Heartbeat
import BabelRs.Engine.Probes

/-!
# Hello histories and Hello timers

A history is the register of the list of RFC 8966 appendix A.1, cut to its newest sixteen
entries, as long as no Hello comes exactly sixteen behind the expected one: that Hello shifts
a `u16` by its width.  A Hello timer counts the same Hellos as missed however often the host
ticks.
-/

set_option autoImplicit false

namespace BabelRs

open Lib

variable {history : HelloHistory}

namespace HelloHistory

/-- A missed Hello shifts the history, and sixteen empty it. -/
theorem bits_appendMissed (history : HelloHistory) (count : Nat) :
    (history.appendMissed (min count 16)).bits.toNat = history.bits.toNat * 2 ^ count % 2 ^ 16 := by
  unfold appendMissed
  split
  next many =>
    have long : 16 ≤ count := by omega
    have emptied : 2 ^ 16 ∣ history.bits.toNat * 2 ^ count :=
      Nat.dvd_mul_left_of_dvd (Nat.pow_dvd_pow 2 long) _
    exact (Nat.mod_eq_zero_of_dvd emptied).symm
  next few =>
    have short : min count 16 = count := by omega
    have small : (UInt16.ofNat count).toNat % 16 = count := by
      rw [UInt16.toNat_ofNat']
      omega
    rw [short, UInt16.toNat_shiftLeft, small, Nat.shiftLeft_eq]

theorem samples_appendMissed (history : HelloHistory) (count : Nat) :
    (history.appendMissed (min count 16)).samples = min (history.samples + count) 16 := by
  unfold appendMissed
  split_ifs <;> dsimp only <;> omega

theorem bits_missedMany (started : history.expectedSeqno.isSome = true) (count : UInt64) :
    (history.missedMany count).bits.toNat = history.bits.toNat * 2 ^ count.toNat % 2 ^ 16 ∧
      (history.missedMany count).expectedSeqno.isSome = true := by
  obtain ⟨expected, known⟩ := Option.isSome_iff_exists.mp started
  simp only [missedMany, known]
  exact ⟨bits_appendMissed history count.toNat, rfl⟩

theorem missedMany_add (history : HelloHistory) (first second : UInt64)
    (small : first.toNat + second.toNat < 2 ^ 64) :
    (history.missedMany first).missedMany second = history.missedMany (first + second) := by
  cases known : history.expectedSeqno with
  | none => simp only [missedMany, known]
  | some expected =>
    have sum : (first + second).toNat = first.toNat + second.toNat := by
      rw [UInt64.toNat_add, Nat.mod_eq_of_lt small]
    simp only [missedMany, known, mk.injEq, sum]
    refine ⟨?_, ?_, ?_⟩
    · apply UInt16.toNat_inj.mp
      rw [bits_appendMissed, bits_appendMissed, bits_appendMissed, Nat.mod_mul_mod, Nat.mul_assoc,
        Nat.pow_add]
    · rw [samples_appendMissed, samples_appendMissed, samples_appendMissed]
      omega
    · rw [UInt64.toUInt16_add, UInt16.add_assoc]

end HelloHistory

/-! ## The reference list -/

inductive HelloCall where
  | record (seqno : UInt16)
  | missedMany (count : UInt64)
deriving DecidableEq

/-- The entries seen so far, newest first, and the next expected number. -/
structure HelloLog where
  entries : List Bool
  expectedSeqno : Option UInt16

/-- The list of appendix A.1 after one call, cut to its newest sixteen entries. -/
def HelloLog.step (log : HelloLog) : HelloCall → HelloLog
  | .record seqno =>
    match log.expectedSeqno with
    | none => ⟨[true], some (seqno + 1)⟩
    | some expected =>
      if seqno - expected ≤ 16 then
        ⟨(true :: (List.replicate (seqno - expected).toNat false ++ log.entries)).take 16,
          some (seqno + 1)⟩
      else if expected - seqno ≤ 16 then
        ⟨(true :: log.entries.drop (expected - seqno).toNat).take 16, some (seqno + 1)⟩
      else ⟨[true], some (seqno + 1)⟩
  | .missedMany count =>
    match log.expectedSeqno with
    | none => log
    | some expected =>
      ⟨(List.replicate count.toNat false ++ log.entries).take 16, some (expected + count.toUInt16)⟩

namespace HelloHistory

def step (history : HelloHistory) : HelloCall → HelloHistory
  | .record seqno => (history.record seqno).1
  | .missedMany count => history.missedMany count

def appendShifts (count : Nat) : List Nat := if count ≥ 16 then [] else [count]

def shifts (history : HelloHistory) : HelloCall → List Nat
  | .record seqno =>
    match history.expectedSeqno with
    | none => []
    | some expected =>
      if seqno - expected ≤ 16 then appendShifts (seqno - expected).toNat ++ [1]
      else if expected - seqno ≤ 16 then [(expected - seqno).toNat, 1]
      else []
  | .missedMany count =>
    if history.expectedSeqno.isSome then appendShifts (min count.toNat 16) else []

def runShifts (history : HelloHistory) : List HelloCall → List Nat
  | [] => []
  | call :: calls => history.shifts call ++ runShifts (history.step call) calls

/-- No Hello is exactly sixteen behind the expected one. -/
def NotSixteenBehind (history : HelloHistory) : HelloCall → Prop
  | .record seqno => ∀ expected ∈ history.expectedSeqno, expected - seqno ≠ 16
  | .missedMany _ => True

def NeverSixteenBehind (history : HelloHistory) : List HelloCall → Prop
  | [] => True
  | call :: calls => history.NotSixteenBehind call ∧ NeverSixteenBehind (history.step call) calls

/-- A history and the list it stands for. -/
structure Encodes (history : HelloHistory) (log : HelloLog) : Prop where
  bits : history.bits.toNat = beatBits log.entries
  samples : history.samples = log.entries.length
  seqno : history.expectedSeqno = log.expectedSeqno
  short : log.entries.length ≤ 16

theorem amounts_appendShifts (count : Nat) : ∀ amount ∈ appendShifts count, amount < 16 := by
  intro amount shifted
  simp only [appendShifts] at shifted
  split_ifs at shifted with many
  · cases shifted
  · rw [List.mem_singleton] at shifted
    omega

theorem shifts_lt_iff (history : HelloHistory) (call : HelloCall) :
    (∀ amount ∈ history.shifts call, amount < 16) ↔ history.NotSixteenBehind call := by
  cases call with
  | missedMany count =>
    simp only [shifts, NotSixteenBehind, iff_true]
    split_ifs
    · exact amounts_appendShifts _
    · simp
  | record seqno =>
    cases known : history.expectedSeqno with
    | none => simp [shifts, NotSixteenBehind, known]
    | some expected =>
      simp only [shifts, NotSixteenBehind, known, Option.mem_some_iff, forall_eq']
      split_ifs with ahead behind
      · have far : expected - seqno ≠ 16 := by
          intro sixteen
          rw [← UInt16.neg_sub, sixteen] at ahead
          exact absurd ahead (by decide)
        refine iff_of_true (fun amount shifted => ?_) far
        rcases List.mem_append.mp shifted with shifted | shifted
        · exact amounts_appendShifts _ amount shifted
        · rw [List.mem_singleton.mp shifted]
          decide
      · rw [UInt16.le_iff_toNat_le] at behind
        have sixteen : expected - seqno = 16 ↔ (expected - seqno).toNat = 16 :=
          UInt16.toNat_inj.symm
        simp only [List.mem_cons, List.not_mem_nil, or_false, forall_eq_or_imp, forall_eq, ne_eq,
          sixteen]
        change _ ≤ 16 at behind
        omega
      · refine iff_of_true (fun amount shifted => by cases shifted) ?_
        intro sixteen
        exact behind (sixteen ▸ UInt16.le_refl _)

theorem runShifts_lt_iff (calls : List HelloCall) :
    (∀ amount ∈ history.runShifts calls, amount < 16) ↔ history.NeverSixteenBehind calls := by
  induction calls generalizing history with
  | nil => simp [runShifts, NeverSixteenBehind]
  | cons call calls ih =>
    simp only [runShifts, NeverSixteenBehind, List.mem_append, or_imp, forall_and, ih,
      shifts_lt_iff]

theorem hit_eq {bits : UInt16} {beats : List Bool} (same : bits.toNat = beatBits (beats.take 16)) :
    (bits <<< 1 ||| 1).toNat = beatBits ((true :: beats).take 16) := by
  have shifted : (bits <<< 1).toNat = (bits.toNat % 2 ^ 15) <<< 1 := by
    change bits.toNat <<< 1 % 2 ^ 16 = _
    omega
  rw [UInt16.toNat_or, shifted]
  change _ ||| 1 = _
  rw [beatBits_take] at same
  rw [← Nat.shiftLeft_add_eq_or_of_lt (by decide : 1 < 2 ^ 1), beatBits_take, beatBits, same,
    Nat.shiftLeft_eq, Bool.toNat_true]
  omega

theorem Encodes.step {log : HelloLog} (encodes : Encodes history log) {call : HelloCall}
    (near : history.NotSixteenBehind call) : Encodes (history.step call) (log.step call) := by
  obtain ⟨bits, samples, seqno, short⟩ := encodes
  cases call with
  | missedMany count =>
    simp only [HelloHistory.step, HelloLog.step, missedMany, ← seqno]
    cases known : history.expectedSeqno with
    | none => exact ⟨bits, samples, seqno, short⟩
    | some expected =>
      refine ⟨?_, ?_, rfl, by simp⟩
      · rw [beatBits_take, beatBits_missed, ← bits]
        exact bits_appendMissed history count.toNat
      · have counted := samples_appendMissed history count.toNat
        simp only [List.length_take, List.length_append, List.length_replicate, ← samples]
        omega
  | record sent =>
    simp only [HelloHistory.step, HelloLog.step, record, ← seqno]
    cases known : history.expectedSeqno with
    | none => exact ⟨rfl, rfl, rfl, Nat.le_of_ble_eq_true rfl⟩
    | some expected =>
      dsimp only
      split_ifs with ahead behind
      · have few : (sent - expected).toNat ≤ 16 := UInt16.le_iff_toNat_le.mp ahead
        have shifted := bits_appendMissed history (sent - expected).toNat
        have counted := samples_appendMissed history (sent - expected).toNat
        rw [Nat.min_eq_left few] at shifted counted
        refine ⟨hit_eq ?_, ?_, rfl, by simp⟩
        · rw [shifted, beatBits_take, beatBits_missed, bits]
        · simp only [List.length_take, List.length_cons, List.length_append, List.length_replicate,
            ← samples, counted]
          omega
      · have few : (expected - sent).toNat < 16 := by
          have apart : (expected - sent).toNat ≠ 16 := fun sixteen =>
            near expected known (UInt16.toNat_inj.mp sixteen)
          have most : (expected - sent).toNat ≤ 16 := UInt16.le_iff_toNat_le.mp behind
          omega
        refine ⟨hit_eq ?_, ?_, rfl, by simp⟩
        · rw [UInt16.toNat_shiftRight, Nat.mod_eq_of_lt few, Nat.shiftRight_eq_div_pow, bits,
            ← beatBits_drop, List.take_of_length_le]
          simp only [List.length_drop]
          omega
        · simp only [List.length_take, List.length_cons, List.length_drop, ← samples]
          omega
      · exact ⟨rfl, rfl, rfl, Nat.le_of_ble_eq_true rfl⟩

theorem Encodes.run {log : HelloLog} (calls : List HelloCall) (encodes : Encodes history log)
    (never : history.NeverSixteenBehind calls) :
    Encodes (calls.foldl HelloHistory.step history) (calls.foldl HelloLog.step log) := by
  induction calls generalizing history log with
  | nil => exact encodes
  | cons call calls ih => exact ih (encodes.step never.1) never.2

theorem received_le_observed (short : history.samples ≤ 16)
    (small : history.bits.toNat < 2 ^ history.samples) : history.received 16 ≤ history.observed := by
  have count : ∀ samples < 17, (List.range 16).countP (fun position => position < samples) =
      samples := by decide
  have whole : history.bits &&& 0xffff = history.bits := UInt16.and_neg_one
  rw [observed, ← count history.samples (by omega), received]
  simp only [if_true, countOnes, whole]
  apply List.countP_mono_left
  intro position _ set
  by_contra above
  rw [Nat.testBit_lt_two_pow (small.trans_le (Nat.pow_le_pow_right (by decide) (by simpa using above)))]
    at set
  cases set

/-- A history is the reference list, and no shift reaches the width of its register, exactly
when no Hello is sixteen behind the expected one. -/
theorem hello_history_is_faithful_iff (calls : List HelloCall) :
    (∀ amount ∈ default.runShifts calls, amount < 16) ∧
        (calls.foldl step default).samples ≤ 16 ∧
        (calls.foldl step default).bits.toNat < 2 ^ (calls.foldl step default).samples ∧
        (calls.foldl step default).received 16 ≤ (calls.foldl step default).observed ∧
        Encodes (calls.foldl step default) (calls.foldl HelloLog.step ⟨[], none⟩) ↔
      default.NeverSixteenBehind calls := by
  constructor
  · exact fun faithful => (runShifts_lt_iff calls).mp faithful.1
  · intro never
    have start : Encodes default ⟨[], none⟩ := ⟨rfl, rfl, rfl, Nat.zero_le _⟩
    have encodes := start.run calls never
    have short := encodes.samples ▸ encodes.short
    have small : _ < 2 ^ _ := encodes.bits ▸ encodes.samples ▸ beatBits_lt _
    exact ⟨(runShifts_lt_iff calls).mpr never, short, small, received_le_observed short small,
      encodes⟩

/-- A Hello sixteen behind: the register keeps the entries that were to be dropped. -/
theorem hello_sixteen_behind_shifts_by_the_width :
    16 ∈ default.runShifts [.record 0, .record 1, .record 65522] ∧
      [.record 0, .record 1, .record 65522].foldl step default = ⟨7, 1, some 65523⟩ ∧
      ([.record 0, .record 1, .record 65522].foldl HelloLog.step ⟨[], none⟩).entries = [true] := by
  decide

end HelloHistory

/-! ## Timers -/

namespace HelloTimer

def period (timer : HelloTimer) : Nat := max (10 * timer.intervalCs.toNat) 1

theorem period_pos (timer : HelloTimer) : 0 < timer.period :=
  Nat.lt_of_lt_of_le Nat.one_pos (Nat.le_max_right _ 1)

def missedAt (timer : HelloTimer) (now : UInt64) : Nat :=
  1 + (now.toNat - timer.nextExpiryMs.toNat) / timer.period

/-- Advancing at `now` saturates nothing. -/
def Unsaturated (now : UInt64) (timer : Option HelloTimer) : Prop :=
  ∀ value ∈ timer, value.nextExpiryMs ≤ now →
    value.nextExpiryMs.toNat + value.period * value.missedAt now < 2 ^ 64

end HelloTimer

theorem toNat_interval (intervalCs : UInt16) (factor : UInt64) (small : factor.toNat ≤ 35) :
    (satMul intervalCs.toUInt64 factor).toNat = intervalCs.toNat * factor.toNat := by
  have bound := intervalCs.toNat_lt
  have product : intervalCs.toNat * factor.toNat ≤ 65535 * 35 :=
    Nat.mul_le_mul (by omega) small
  have fits : min (intervalCs.toNat * factor.toNat) u64Max = intervalCs.toNat * factor.toNat :=
    Nat.min_eq_left (by simp only [u64Max]; omega)
  rw [satMul, UInt16.toNat_toUInt64, fits, UInt64.toNat_ofNat', Nat.mod_eq_of_lt (by omega)]

variable {now : UInt64} {timer : HelloTimer}

theorem advanceHelloTimer_waiting (waiting : now < timer.nextExpiryMs) :
    advanceHelloTimer now (some timer) history = (some timer, history) := if_pos waiting

theorem advanceHelloTimer_due (due : timer.nextExpiryMs ≤ now)
    (room : timer.nextExpiryMs.toNat + timer.period * timer.missedAt now < 2 ^ 64) :
    advanceHelloTimer now (some timer) history =
      (some { timer with
        nextExpiryMs := .ofNat (timer.nextExpiryMs.toNat + timer.period * timer.missedAt now) },
        history.missedMany (.ofNat (timer.missedAt now))) := by
  have period : (max (satMul timer.intervalCs.toUInt64 10) 1).toNat = timer.period := by
    rw [toNat_max, toNat_interval _ _ (by decide), Nat.mul_comm]
    rfl
  have few : timer.missedAt now ≤ timer.period * timer.missedAt now :=
    Nat.le_mul_of_pos_left _ timer.period_pos
  have missed : 1 + satSub now timer.nextExpiryMs / max (satMul timer.intervalCs.toUInt64 10) 1 =
      .ofNat (timer.missedAt now) := by
    apply UInt64.toNat_inj.mp
    rw [UInt64.toNat_add, UInt64.toNat_div, toNat_satSub, period, UInt64.toNat_ofNat']
    rfl
  simp only [advanceHelloTimer, if_neg (UInt64.not_lt.mpr due), missed]
  congr 3
  apply UInt64.toNat_inj.mp
  rw [toNat_satAdd, satMul, period, UInt64.toNat_ofNat', UInt64.toNat_ofNat', UInt64.toNat_ofNat',
    Nat.mod_eq_of_lt (by omega : timer.missedAt now < 2 ^ 64), Nat.mul_comm _ timer.period]
  simp only [u64Max]
  omega

/-- The next expiry lies ahead, by no more than one period. -/
theorem expiry_passed (due : timer.nextExpiryMs ≤ now) :
    now.toNat < timer.nextExpiryMs.toNat + timer.period * timer.missedAt now ∧
      timer.nextExpiryMs.toNat + timer.period * timer.missedAt now ≤ now.toNat + timer.period :=
  deadline_passed timer.period_pos (UInt64.le_iff_toNat_le.mp due)

theorem advanceHelloTimer_twice {early : UInt64} (timer : Option HelloTimer)
    (history : HelloHistory) (ordered : early ≤ now) (room : HelloTimer.Unsaturated now timer) :
    advanceHelloTimer now (advanceHelloTimer early timer history).1
        (advanceHelloTimer early timer history).2 =
      advanceHelloTimer now timer history := by
  cases timer with
  | none => rfl
  | some timer =>
    by_cases waiting : early < timer.nextExpiryMs
    · rw [advanceHelloTimer_waiting waiting]
    · have dueEarly := UInt64.not_lt.mp waiting
      have due := UInt64.le_trans dueEarly ordered
      have whole := room timer rfl due
      have split := missed_add timer.period_pos (UInt64.le_iff_toNat_le.mp dueEarly)
        (UInt64.le_iff_toNat_le.mp ordered)
      change timer.missedAt now = timer.missedAt early + _ at split
      have below : timer.nextExpiryMs.toNat + timer.period * timer.missedAt early < 2 ^ 64 := by
        have fewer : timer.period * timer.missedAt early ≤ timer.period * timer.missedAt now :=
          Nat.mul_le_mul_left _ (by omega)
        omega
      rw [advanceHelloTimer_due dueEarly below, advanceHelloTimer_due due whole]
      generalize advanced : ({ timer with nextExpiryMs := .ofNat _ } : HelloTimer) = next
      have expiry : next.nextExpiryMs.toNat =
          timer.nextExpiryMs.toNat + timer.period * timer.missedAt early := by
        rw [← advanced, UInt64.toNat_ofNat', Nat.mod_eq_of_lt below]
      have period : next.period = timer.period := by rw [← advanced]; rfl
      by_cases again : now < next.nextExpiryMs
      · rw [if_pos (expiry ▸ UInt64.lt_iff_toNat_lt.mp again), Nat.add_zero] at split
        rw [advanceHelloTimer_waiting again, ← advanced, split]
      · have later := UInt64.not_lt.mp again
        rw [if_neg (expiry ▸ fun sooner => again (UInt64.lt_iff_toNat_lt.mpr sooner))] at split
        have missed : timer.missedAt now = timer.missedAt early + next.missedAt now := by
          rw [split, HelloTimer.missedAt, HelloTimer.missedAt, expiry, period]
          rfl
        rw [missed, Nat.mul_add, ← Nat.add_assoc, ← expiry, ← period] at whole
        have few : next.missedAt now ≤ next.period * next.missedAt now :=
          Nat.le_mul_of_pos_left _ next.period_pos
        have fewEarly : timer.missedAt early ≤ timer.period * timer.missedAt early :=
          Nat.le_mul_of_pos_left _ timer.period_pos
        rw [advanceHelloTimer_due later whole, HelloHistory.missedMany_add, missed,
          ← UInt64.ofNat_add]
        · rw [Nat.mul_add, ← Nat.add_assoc, ← expiry, ← period]
          subst advanced
          rfl
        · rw [UInt64.toNat_ofNat', UInt64.toNat_ofNat']
          omega

/-- However often the host ticks, the same Hellos count as missed. -/
theorem late_ticks_cost_nothing (timer : Option HelloTimer) (history : HelloHistory)
    {early now : UInt64} (ordered : early ≤ now) (room : HelloTimer.Unsaturated now timer) :
    advanceHelloTimer now (advanceHelloTimer early timer history).1
        (advanceHelloTimer early timer history).2 = advanceHelloTimer now timer history ∧
      (∀ value, (advanceHelloTimer now timer history).1 = some value → now < value.nextExpiryMs) ∧
      ∀ first second : UInt64, first.toNat + second.toNat < 2 ^ 64 →
        (history.missedMany first).missedMany second = history.missedMany (first + second) := by
  refine ⟨advanceHelloTimer_twice timer history ordered room, fun value advanced => ?_,
    history.missedMany_add⟩
  cases timer with
  | none => cases advanced
  | some timer =>
    by_cases waiting : now < timer.nextExpiryMs
    · rw [advanceHelloTimer_waiting waiting] at advanced
      cases advanced
      exact waiting
    · have due := UInt64.not_lt.mp waiting
      have whole := room timer rfl due
      rw [advanceHelloTimer_due due whole] at advanced
      cases advanced
      rw [UInt64.lt_iff_toNat_lt, UInt64.toNat_ofNat', Nat.mod_eq_of_lt whole]
      exact (expiry_passed due).1

/-- A timer of four seconds, read after five and after ten. -/
theorem late_ticks_of_a_hello :
    advanceHelloTimer 10000 (some ⟨400, 6000⟩) ⟨1, 1, some 8⟩ =
      (some ⟨400, 14000⟩, ⟨4, 3, some 10⟩) ∧
    (advanceHelloTimer 10000 (advanceHelloTimer 6500 (some ⟨400, 6000⟩) ⟨1, 1, some 8⟩).1
        (advanceHelloTimer 6500 (some ⟨400, 6000⟩) ⟨1, 1, some 8⟩).2 =
      advanceHelloTimer 10000 (some ⟨400, 6000⟩) ⟨1, 1, some 8⟩) := by
  have room : HelloTimer.Unsaturated 10000 (some ⟨400, 6000⟩) := by
    intro value known due
    cases known
    decide
  exact ⟨by decide, (late_ticks_cost_nothing _ _ (by decide) room).1⟩

end BabelRs
