import Mathlib.Data.List.Induction

/-!
# Logs of writes and sweeps

A table with expiry is the memory of its log: a write creates or refreshes the
entry of its key, a sweep removes the entries whose last write has expired by
then.  `lifetime` is what the log remembers for one key: the writes since the
entry was last created.
-/

set_option autoImplicit false

namespace BabelRs.Lib

inductive LogEntry (K V T : Type) where
  | write (key : K) (value : V) (time : T)
  | sweep (time : T)
deriving DecidableEq

variable {K V T : Type} (expired : T → T → Bool) (key : K)

/-! ## The last write of a key -/

/-- The last write of `key` in the log, when no later sweep found it expired. -/
def LastWrite (log : List (LogEntry K V T)) (value : V) (time : T) : Prop :=
  ∃ older newer, log = older ++ .write key value time :: newer ∧
    (∀ other at_, LogEntry.write key other at_ ∉ newer) ∧
    ∀ at_, LogEntry.sweep at_ ∈ newer → expired time at_ = false

theorem not_lastWrite_nil (value : V) (time : T) : ¬ LastWrite expired key [] value time := by
  rintro ⟨older, newer, split, _⟩
  simp at split

/-- A list ending in `entry` was split either at `entry` or before it. -/
theorem concat_eq_append_cons {α : Type} {log older newer : List α} {entry item : α}
    (split : log ++ [entry] = older ++ item :: newer) :
    (newer = [] ∧ log = older ∧ entry = item) ∨
      ∃ rest, newer = rest ++ [entry] ∧ log = older ++ item :: rest := by
  rcases List.eq_nil_or_concat newer with rfl | ⟨rest, last, rfl⟩
  · left
    have sizes : log.length = older.length := by
      have := congrArg List.length split
      simpa using this
    obtain ⟨same, final⟩ := List.append_inj split sizes
    exact ⟨rfl, same, by simpa using final⟩
  · right
    have regrouped : log ++ [entry] = (older ++ item :: rest) ++ [last] := by simpa using split
    obtain ⟨same, final⟩ := List.append_inj' regrouped rfl
    have lastEq : entry = last := by simpa using final
    exact ⟨rest, by rw [lastEq, List.concat_eq_append], same⟩

variable (log : List (LogEntry K V T))

theorem lastWrite_concat_self (written value : V) (at_ time : T) :
    LastWrite expired key (log ++ [.write key written at_]) value time ↔
      value = written ∧ time = at_ := by
  constructor
  · rintro ⟨older, newer, split, unwritten, _⟩
    rcases concat_eq_append_cons split with ⟨_, _, same⟩ | ⟨rest, rfl, _⟩
    · cases same
      exact ⟨rfl, rfl⟩
    · exact absurd (List.mem_append_right rest List.mem_cons_self) (unwritten written at_)
  · rintro ⟨rfl, rfl⟩
    exact ⟨log, [], rfl, by simp, by simp⟩

/-- An entry that is no write of `key` keeps the last write unless it expires it. -/
theorem lastWrite_concat_other {entry : LogEntry K V T}
    (other : ∀ value at_, entry ≠ .write key value at_) (value : V) (time : T) :
    LastWrite expired key (log ++ [entry]) value time ↔
      LastWrite expired key log value time ∧
        ∀ at_, entry = .sweep at_ → expired time at_ = false := by
  constructor
  · rintro ⟨older, newer, split, unwritten, fresh⟩
    rcases concat_eq_append_cons split with ⟨_, _, same⟩ | ⟨rest, rfl, same⟩
    · exact absurd same (other value time)
    · refine ⟨⟨older, rest, same, ?_, ?_⟩, ?_⟩
      · intro written at_ member
        exact unwritten written at_ (List.mem_append_left _ member)
      · intro at_ member
        exact fresh at_ (List.mem_append_left _ member)
      · rintro at_ rfl
        exact fresh at_ (List.mem_append_right _ List.mem_cons_self)
  · rintro ⟨⟨older, newer, rfl, unwritten, fresh⟩, survives⟩
    refine ⟨older, newer ++ [entry], by simp, ?_, ?_⟩
    · intro written at_ member
      rcases List.mem_append.mp member with early | last
      · exact unwritten written at_ early
      · exact other written at_ (List.mem_singleton.mp last).symm
    · intro at_ member
      rcases List.mem_append.mp member with early | last
      · exact fresh at_ early
      · exact survives at_ (List.mem_singleton.mp last).symm

/-! ## The remembered writes of a key -/

variable [DecidableEq K]

def lifetimeStep (life : List (V × T)) : LogEntry K V T → List (V × T)
  | .write name value time => if name = key then life ++ [(value, time)] else life
  | .sweep time => if life.getLast?.any fun last => expired last.2 time then [] else life

/-- The writes of `key` since its entry was last created, oldest first. -/
def lifetime (log : List (LogEntry K V T)) : List (V × T) :=
  log.foldl (lifetimeStep expired key) []

@[simp] theorem lifetime_nil : lifetime expired key ([] : List (LogEntry K V T)) = [] := rfl

theorem lifetime_concat (entry : LogEntry K V T) :
    lifetime expired key (log ++ [entry]) =
      lifetimeStep expired key (lifetime expired key log) entry := by
  simp [lifetime]

/-- The log remembers `key` exactly while its last write is unexpired. -/
theorem getLast?_lifetime (value : V) (time : T) :
    (lifetime expired key log).getLast? = some (value, time) ↔
      LastWrite expired key log value time := by
  induction log using List.reverseRecOn with
  | nil => simp [not_lastWrite_nil]
  | append_singleton log entry ih =>
    rw [lifetime_concat]
    cases entry with
    | write name written at_ =>
      by_cases here : name = key
      · subst here
        rw [lastWrite_concat_self]
        simp only [lifetimeStep, if_true, List.getLast?_concat, Option.some.injEq,
          Prod.mk.injEq]
        exact ⟨fun same => ⟨same.1.symm, same.2.symm⟩, fun same => ⟨same.1.symm, same.2.symm⟩⟩
      · rw [lastWrite_concat_other expired key log (by simp [here]), ← ih]
        simp [lifetimeStep, here]
    | sweep at_ =>
      rw [lastWrite_concat_other expired key log (by simp), ← ih]
      simp only [lifetimeStep, LogEntry.sweep.injEq, forall_eq']
      cases last : (lifetime expired key log).getLast? with
      | none => simp [last]
      | some final =>
        cases gone : expired final.2 at_ with
        | true =>
          simp only [Option.any_some, gone, if_true, List.getLast?_nil, Option.some.injEq,
            reduceCtorEq, false_iff, not_and]
          rintro rfl
          simpa using gone
        | false =>
          simp only [Option.any_some, gone, Bool.false_eq_true, if_false, last,
            Option.some.injEq]
          refine ⟨fun same => ⟨same, ?_⟩, fun both => both.1⟩
          rw [same] at gone
          exact gone

theorem lifetime_ne_nil_iff :
    lifetime expired key log ≠ [] ↔ ∃ value time, LastWrite expired key log value time := by
  simp only [← getLast?_lifetime]
  cases lifetime expired key log with
  | nil => simp
  | cons first rest =>
    refine ⟨fun _ => ?_, fun _ => by simp⟩
    exact ⟨_, _, List.getLast?_eq_some_getLast (by simp)⟩

end BabelRs.Lib
