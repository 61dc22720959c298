import Mathlib.Data.List.Basic

/-!
# A damped choice

In every round something chooses among offers.  A choice in force is kept until
another offer has been the best, and better by a margin, for some time; before the
first choice has settled, the margin alone decides.  `State` is what such a chooser
remembers between rounds.  `Settling` and `Dwelling` say in terms of the rounds alone
what its memory stands for, and `Tracks` that it does.
-/

set_option autoImplicit false

namespace BabelRs.Lib.Hysteresis

/-- What counts as long enough, as better by the margin, and as the peak of two costs. -/
structure Rule (T C : Type) where
  waited : T → T → Bool
  clears : C → C → Bool
  peak : C → C → C
  clears_self : ∀ cost, clears cost cost = false
  peak_self : ∀ cost, peak cost cost = cost

variable {I T C : Type}

/-- What a round sees: the cost of the choice in force, if it is still offered, and the
best offer. -/
structure Round (I T C : Type) where
  time : T
  current : Option C
  best : Option (I × C)

structure Watch (I T C : Type) where
  alternate : I
  since : T
  peak : C

structure State (I T C : Type) where
  chosen : Option I
  watch : Option (Watch I T C)
  since : Option T
  settled : Bool

def State.empty : State I T C := ⟨none, none, none, false⟩

section Step
variable [DecidableEq I] (rule : Rule T C)

/-- Whether the first choice has lasted long enough. -/
def State.settle (time : T) (state : State I T C) : State I T C :=
  if state.settled then state
  else
    { state with
      since := some (state.since.getD time)
      settled := rule.waited (state.since.getD time) time }

/-- The observation of an alternate, begun anew for another one. -/
def observe (time : T) (alternate : I) (current : C) (watch : Option (Watch I T C)) :
    Watch I T C :=
  let watch := (watch.filter fun old => decide (old.alternate = alternate)).getD
    ⟨alternate, time, current⟩
  { watch with peak := rule.peak watch.peak current }

/-- A settled choice against an alternate that clears the margin. -/
def dwell (time : T) (alternate : I) (current : C) (state : State I T C) : State I T C :=
  let watch := observe rule time alternate current state.watch
  if rule.clears current watch.peak then
    { state with watch := some ⟨alternate, time, current⟩ }
  else if rule.waited watch.since time then
    { state with chosen := some alternate, watch := none }
  else { state with watch := some watch }

/-- The choice in force against the best offer. -/
def challenge (time : T) (held : I) (current : C) (alternate : I) (cost : C)
    (state : State I T C) : State I T C :=
  if alternate = held || !rule.clears cost current then { state with watch := none }
  else if !state.settled then ⟨some alternate, none, some time, false⟩
  else dwell rule time alternate current state

/-- Nothing in force is on offer: take the best. -/
def replace (time : T) (alternate : I) (state : State I T C) : State I T C where
  chosen := some alternate
  watch := none
  since := if state.settled then state.since else some time
  settled := state.settled

def step (round : Round I T C) (state : State I T C) : State I T C :=
  match round.best with
  | none => .empty
  | some (alternate, cost) =>
    let state := state.settle rule round.time
    match state.chosen, round.current with
    | some held, some current => challenge rule round.time held current alternate cost state
    | _, _ => replace round.time alternate state

end Step

/-! ## What the rounds tell -/

structure Entry (I T C : Type) where
  held : Option I
  round : Round I T C
  next : Option I

/-- A choice that has not settled: since `since` it was first made or last changed, and
every choice before it was changed before it had lasted long enough. -/
inductive Settling (rule : Rule T C) : List (Entry I T C) → T → Prop
  | made {log : List (Entry I T C)} {entry : Entry I T C} (fresh : entry.held = none)
      (chosen : entry.next ≠ none) : Settling rule (log ++ [entry]) entry.round.time
  | changed {log : List (Entry I T C)} {since : T} {entry : Entry I T C}
      (before : Settling rule log since) (early : rule.waited since entry.round.time = false)
      (chosen : entry.next ≠ none) (moved : entry.next ≠ entry.held) :
      Settling rule (log ++ [entry]) entry.round.time
  | kept {log : List (Entry I T C)} {since : T} {entry : Entry I T C}
      (before : Settling rule log since) (early : rule.waited since entry.round.time = false)
      (same : entry.next = entry.held) : Settling rule (log ++ [entry]) since

/-- In the round, `held` is in force and offered at `current`, and the best offer is
`alternate`, which clears the margin. -/
structure Favours (rule : Rule T C) (held alternate : I) (current : C) (entry : Entry I T C) :
    Prop where
  inForce : entry.held = some held
  offered : entry.round.current = some current
  apart : alternate ≠ held
  best : ∃ cost, entry.round.best = some (alternate, cost) ∧ rule.clears cost current = true

/-- From a round at `since` to the last one, every round favours `alternate` over `held`,
and the cost of `held` never cleared the margin below its peak. -/
inductive Dwelling (rule : Rule T C) (held alternate : I) : List (Entry I T C) → T → C → Prop
  | begun {log : List (Entry I T C)} {entry : Entry I T C} {current : C}
      (favours : Favours rule held alternate current entry) :
      Dwelling rule held alternate (log ++ [entry]) entry.round.time current
  | lasted {log : List (Entry I T C)} {since : T} {peak : C} {entry : Entry I T C} {current : C}
      (before : Dwelling rule held alternate log since peak)
      (favours : Favours rule held alternate current entry)
      (steady : rule.clears current (rule.peak peak current) = false) :
      Dwelling rule held alternate (log ++ [entry]) since (rule.peak peak current)

/-! ## What the memory stands for -/

structure Tracks (rule : Rule T C) (log : List (Entry I T C)) (state : State I T C) : Prop where
  settling : ∀ id, state.chosen = some id → state.settled = false →
    ∃ since, state.since = some since ∧ Settling rule log since
  dwelling : ∀ watch, state.watch = some watch → ∃ id, state.chosen = some id ∧
    Dwelling rule id watch.alternate log watch.since watch.peak

theorem tracks_empty (rule : Rule T C) (log : List (Entry I T C)) :
    Tracks rule log (State.empty : State I T C) where
  settling := fun _ chosen => by cases chosen
  dwelling := fun _ watched => by cases watched

section Tracks
variable {rule : Rule T C} {log : List (Entry I T C)} {state : State I T C}

theorem settle_chosen (time : T) : (state.settle rule time).chosen = state.chosen := by
  unfold State.settle
  split <;> rfl

theorem settle_watch (time : T) : (state.settle rule time).watch = state.watch := by
  unfold State.settle
  split <;> rfl

variable {time : T}

/-- A choice that is still unsettled in this round was unsettled before it. -/
theorem Tracks.unsettled (tracks : Tracks rule log state) {id : I} (chosen : state.chosen = some id)
    (early : (state.settle rule time).settled = false) :
    ∃ since, (state.settle rule time).since = some since ∧ Settling rule log since ∧
      rule.waited since time = false := by
  unfold State.settle at early ⊢
  split at early
  next settled => exact absurd (settled.symm.trans early) (by decide)
  next unsettled =>
    obtain ⟨since, known, settling⟩ := tracks.settling id chosen (by simpa using unsettled)
    rw [known, Option.getD_some] at early
    rw [if_neg unsettled, known, Option.getD_some]
    exact ⟨since, rfl, settling, early⟩

variable [DecidableEq I]

theorem observe_alternate (rule : Rule T C) (time : T) (alternate : I) (current : C)
    (watch : Option (Watch I T C)) :
    (observe rule time alternate current watch).alternate = alternate := by
  unfold observe
  cases kept : watch.filter fun old => decide (old.alternate = alternate) with
  | none => rfl
  | some old => exact of_decide_eq_true (Option.filter_eq_some_iff.mp kept).2

variable {alternate held : I} {current : C}

/-- The observation continues that of the state or begins in this round. -/
theorem observe_dwelling {entry : Entry I T C} (timed : entry.round.time = time)
    (favours : Favours rule held alternate current entry)
    (dwelling : ∀ watch, state.watch = some watch →
      Dwelling rule held watch.alternate log watch.since watch.peak)
    (steady : rule.clears current (observe rule time alternate current state.watch).peak = false) :
    Dwelling rule held alternate (log ++ [entry])
      (observe rule time alternate current state.watch).since
      (observe rule time alternate current state.watch).peak := by
  unfold observe at steady ⊢
  cases kept : state.watch.filter fun old => decide (old.alternate = alternate) with
  | none =>
    simp only [Option.getD_none, rule.peak_self, ← timed]
    exact .begun favours
  | some watch =>
    obtain ⟨watched, same⟩ := Option.filter_eq_some_iff.mp kept
    rw [kept, Option.getD_some] at steady
    have before := dwelling watch watched
    rw [of_decide_eq_true same] at before
    exact .lasted before favours steady

theorem challenge_cases (rule : Rule T C) (time : T) (held : I) (current : C) (alternate : I)
    (cost : C) (state : State I T C) :
    challenge rule time held current alternate cost state = { state with watch := none } ∨
      alternate ≠ held ∧ rule.clears cost current = true ∧
        (state.settled = false ∧ challenge rule time held current alternate cost state =
            ⟨some alternate, none, some time, false⟩ ∨
          state.settled = true ∧ challenge rule time held current alternate cost state =
            dwell rule time alternate current state) := by
  unfold challenge
  split
  next => exact Or.inl rfl
  next better =>
    right
    simp only [Bool.or_eq_true, decide_eq_true_eq, Bool.not_eq_true', not_or,
      Bool.not_eq_false] at better
    refine ⟨better.1, better.2, ?_⟩
    cases settled : state.settled with
    | false => exact Or.inl ⟨rfl, if_pos rfl⟩
    | true => exact Or.inr ⟨rfl, if_neg (by simp)⟩

variable {round : Round I T C}

variable {cost : C}

theorem step_challenge (chosen : state.chosen = some held) (offered : round.current = some current)
    (best : round.best = some (alternate, cost)) :
    step rule round state = challenge rule round.time held current alternate cost
      (state.settle rule round.time) := by
  unfold step
  rw [best]
  simp only [settle_chosen, chosen, offered]

/-- The choice in force, while it is not offered, is not the best offer either. -/
def Round.Fair (round : Round I T C) (held : Option I) : Prop :=
  round.current = none → ∀ alternate cost, round.best = some (alternate, cost) →
    held ≠ some alternate

theorem step_replace (best : round.best = some (alternate, cost))
    (unoffered : state.chosen = none ∨ round.current = none) :
    step rule round state = replace round.time alternate (state.settle rule round.time) := by
  unfold step
  rw [best]
  simp only [settle_chosen]
  rcases unoffered with absent | gone
  · rw [absent]
  · rw [gone]
    cases state.chosen <;> rfl

def entryOf (rule : Rule T C) (round : Round I T C) (state : State I T C) : Entry I T C :=
  ⟨state.chosen, round, (step rule round state).chosen⟩

theorem favours_entry (chosen : state.chosen = some held) (offered : round.current = some current)
    (best : round.best = some (alternate, cost)) (apart : alternate ≠ held)
    (clears : rule.clears cost current = true) :
    Favours rule held alternate current (entryOf rule round state) :=
  ⟨chosen, offered, apart, cost, best, clears⟩

theorem Tracks.after_replace (tracks : Tracks rule log state)
    (best : round.best = some (alternate, cost))
    (unoffered : state.chosen = none ∨ round.current = none) (left : state.chosen ≠ some alternate) :
    Tracks rule (log ++ [entryOf rule round state])
      (replace round.time alternate (state.settle rule round.time)) := by
  have next : (entryOf rule round state).next = some alternate :=
    congrArg State.chosen (step_replace best unoffered)
  have chosen : (entryOf rule round state).next ≠ none := by
    rw [next]
    exact Option.some_ne_none _
  refine ⟨fun id _ unsettled => ?_, fun watch watched => by cases watched⟩
  have early : (state.settle rule round.time).settled = false := unsettled
  refine ⟨(entryOf rule round state).round.time, by simp [replace, early, entryOf], ?_⟩
  cases held : state.chosen with
  | none => exact .made held chosen
  | some id =>
    obtain ⟨since, _, settling, young⟩ := tracks.unsettled held early
    refine .changed settling young chosen ?_
    rw [next]
    exact left.symm

omit [DecidableEq I] in
theorem Tracks.watched (tracks : Tracks rule log state) (chosen : state.chosen = some held)
    {watch : Watch I T C} (watched : (state.settle rule time).watch = some watch) :
    Dwelling rule held watch.alternate log watch.since watch.peak := by
  rw [settle_watch] at watched
  obtain ⟨id, same, dwelling⟩ := tracks.dwelling watch watched
  cases chosen.symm.trans same
  exact dwelling

theorem Tracks.after_dwell (tracks : Tracks rule log state) (chosen : state.chosen = some held)
    {entry : Entry I T C} (favours : Favours rule held alternate current entry)
    (settled : (state.settle rule entry.round.time).settled = true) :
    Tracks rule (log ++ [entry])
      (dwell rule entry.round.time alternate current (state.settle rule entry.round.time)) := by
  have kept : (state.settle rule entry.round.time).chosen = some held :=
    (settle_chosen _).trans chosen
  refine ⟨fun id _ unsettled => ?_, ?_⟩
  · have same : (dwell rule entry.round.time alternate current
        (state.settle rule entry.round.time)).settled = true := by
      simp only [dwell]
      split_ifs <;> exact settled
    exact absurd (same.symm.trans unsettled) (by decide)
  · simp only [dwell]
    split
    next =>
      rintro watch ⟨⟩
      exact ⟨held, kept, .begun favours⟩
    next steady =>
      split
      next =>
        intro watch watched
        cases watched
      next =>
        rintro watch ⟨⟩
        refine ⟨held, kept, ?_⟩
        rw [observe_alternate]
        exact observe_dwelling rfl favours (fun _ watched => tracks.watched chosen watched)
          (by simpa using steady)

theorem Tracks.after_challenge (tracks : Tracks rule log state) (chosen : state.chosen = some held)
    (offered : round.current = some current) (best : round.best = some (alternate, cost)) :
    Tracks rule (log ++ [entryOf rule round state])
      (challenge rule round.time held current alternate cost (state.settle rule round.time)) := by
  have taken : Hysteresis.step rule round state = _ := step_challenge chosen offered best
  rcases challenge_cases rule round.time held current alternate cost
    (state.settle rule round.time) with kept | ⟨apart, clears, ⟨early, moved⟩ | ⟨settled, dwells⟩⟩
  · rw [kept] at taken ⊢
    have same : (entryOf rule round state).next = (entryOf rule round state).held :=
      (congrArg State.chosen taken).trans (settle_chosen _)
    refine ⟨fun id inForce early => ?_, fun watch watched => by cases watched⟩
    obtain ⟨since, known, settling, young⟩ := tracks.unsettled chosen early
    exact ⟨since, known, .kept settling young same⟩
  · rw [moved] at taken ⊢
    have next : (entryOf rule round state).next = some alternate := congrArg State.chosen taken
    refine ⟨fun id inForce _ => ⟨round.time, rfl, ?_⟩, fun watch watched => by cases watched⟩
    obtain ⟨since, _, settling, young⟩ := tracks.unsettled chosen early
    have changed : Settling rule (log ++ [entryOf rule round state])
        (entryOf rule round state).round.time := by
      refine .changed settling young ?_ ?_
      · rw [next]
        exact Option.some_ne_none _
      · rw [next, show (entryOf rule round state).held = some held from chosen]
        exact fun same => apart (Option.some.inj same)
    exact changed
  · rw [dwells]
    exact tracks.after_dwell chosen (favours_entry chosen offered best apart clears) settled

/-- A choice that another offer replaced, although it was still offered, had not settled,
or the other offer had been favoured for long enough. -/
theorem Tracks.moves (tracks : Tracks rule log state) (chosen : state.chosen = some held)
    (offered : round.current = some current)
    (next : (Hysteresis.step rule round state).chosen = some alternate) (apart : alternate ≠ held) :
    Favours rule held alternate current (entryOf rule round state) ∧
      ((∃ since, Settling rule log since ∧ rule.waited since round.time = false) ∨
        ∃ since peak, Dwelling rule held alternate (log ++ [entryOf rule round state]) since peak ∧
          rule.waited since round.time = true) := by
  cases best : round.best with
  | none =>
    unfold Hysteresis.step at next
    rw [best] at next
    cases next
  | some offer =>
    obtain ⟨favourite, cost⟩ := offer
    rw [step_challenge chosen offered best] at next
    have settledChosen : (state.settle rule round.time).chosen = some held :=
      (settle_chosen _).trans chosen
    rcases challenge_cases rule round.time held current favourite cost
      (state.settle rule round.time) with kept | ⟨left, clears, ⟨early, moved⟩ | ⟨settled, dwells⟩⟩
    · rw [kept] at next
      exact absurd (Option.some.inj (next.symm.trans settledChosen)) apart
    · rw [moved] at next
      cases next
      obtain ⟨since, _, settling, young⟩ := tracks.unsettled chosen early
      exact ⟨favours_entry chosen offered best left clears, Or.inl ⟨since, settling, young⟩⟩
    · rw [dwells] at next
      simp only [dwell] at next
      split at next
      · exact absurd (Option.some.inj (next.symm.trans settledChosen)) apart
      next steady =>
        split at next
        next ready =>
          cases next
          have favours : Favours rule held alternate current (entryOf rule round state) :=
            favours_entry chosen offered best left clears
          exact ⟨favours, Or.inr ⟨_, _, observe_dwelling rfl favours
            (fun _ watched => tracks.watched chosen watched) (Bool.not_eq_true _ ▸ steady), ready⟩⟩
        next => exact absurd (Option.some.inj (next.symm.trans settledChosen)) apart

/-- Every round keeps the memory faithful to the log. -/
theorem Tracks.step (tracks : Tracks rule log state) (fair : round.Fair state.chosen) :
    Tracks rule (log ++ [entryOf rule round state]) (step rule round state) := by
  cases best : round.best with
  | none =>
    have lost : Hysteresis.step rule round state = .empty := by
      unfold Hysteresis.step
      rw [best]
    rw [lost]
    exact tracks_empty rule _
  | some offer =>
    obtain ⟨alternate, cost⟩ := offer
    cases chosen : state.chosen with
    | none =>
      rw [step_replace best (Or.inl chosen)]
      exact tracks.after_replace best (Or.inl chosen) (by simp [chosen])
    | some held =>
      cases offered : round.current with
      | none =>
        rw [step_replace best (Or.inr offered)]
        exact tracks.after_replace best (Or.inr offered) (fair offered alternate cost best)
      | some current =>
        rw [step_challenge chosen offered best]
        exact tracks.after_challenge chosen offered best

end Tracks

end BabelRs.Lib.Hysteresis
