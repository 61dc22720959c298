import Mathlib.Data.List.Basic

/-!
# State transformers with output

An `Effect` maps a state to a new state and the list of outputs it emitted.  A
program is a chain of effects, so a fact about whole programs is a relation
between the state before, the outputs and the state after that survives
sequencing.  `Chains` names that closure and the rules below lift it from the
single effects to chains, conditionals and loops.
-/

set_option autoImplicit false

namespace BabelRs.Lib

abbrev Effect (S A : Type) := S → S × List A

namespace Effect

variable {S A α : Type}

def skip : Effect S A := fun s => (s, [])

def update (f : S → S) : Effect S A := fun s => (f s, [])

/-- Output read off the current state. -/
def emit (f : S → List A) : Effect S A := fun s => (s, f s)

def andThen (first second : Effect S A) : Effect S A := fun s =>
  ((second (first s).1).1, (first s).2 ++ (second (first s).1).2)

def when (condition : S → Bool) (body : Effect S A) : Effect S A := fun s =>
  if condition s then body s else (s, [])

def forEach : List α → (α → Effect S A) → Effect S A
  | [], _ => skip
  | item :: rest, body => andThen (body item) (forEach rest body)

@[simp] theorem skip_apply (s : S) : (skip : Effect S A) s = (s, []) := rfl

@[simp] theorem update_apply (f : S → S) (s : S) : (update f : Effect S A) s = (f s, []) := rfl

@[simp] theorem emit_apply (f : S → List A) (s : S) : emit f s = (s, f s) := rfl

@[simp] theorem andThen_apply (first second : Effect S A) (s : S) :
    andThen first second s =
      ((second (first s).1).1, (first s).2 ++ (second (first s).1).2) := rfl

@[simp] theorem forEach_nil (body : α → Effect S A) : forEach [] body = skip := rfl

@[simp] theorem forEach_cons (item : α) (rest : List α) (body : α → Effect S A) :
    forEach (item :: rest) body = andThen (body item) (forEach rest body) := rfl

theorem forEach_append (first second : List α) (body : α → Effect S A) (s : S) :
    forEach (first ++ second) body s = andThen (forEach first body) (forEach second body) s := by
  induction first generalizing s with
  | nil => simp [skip]
  | cons item rest ih => simp [ih]

/-- A transition relation closed under doing nothing and under sequencing. -/
structure Chains (T : S → List A → S → Prop) : Prop where
  refl : ∀ s, T s [] s
  trans : ∀ {s middle t first second}, T s first middle → T middle second t →
    T s (first ++ second) t

/-- A silent transition disappears in front of another one. -/
theorem Chains.after_silent {T : S → List A → S → Prop} (chains : Chains T) {s middle t : S}
    {outputs : List A} (silent : T s [] middle) (rest : T middle outputs t) : T s outputs t :=
  chains.trans silent rest

theorem keeps_chains (Inv : S → Prop) :
    Chains fun (s : S) (_ : List A) (t : S) => Inv s → Inv t :=
  ⟨fun _ holds => holds, fun first second holds => second (first holds)⟩

/-- A transition of `T` from the states of `Inv`, which it keeps. -/
def Guarded (Inv : S → Prop) (T : S → List A → S → Prop) (s : S) (outputs : List A) (t : S) : Prop :=
  Inv s → Inv t ∧ T s outputs t

theorem guarded_chains (Inv : S → Prop) {T : S → List A → S → Prop} (chains : Chains T) :
    Chains (Guarded Inv T) where
  refl := fun s holds => ⟨holds, chains.refl s⟩
  trans := by
    intro s middle t first second left right holds
    obtain ⟨between, early⟩ := left holds
    obtain ⟨after, late⟩ := right between
    exact ⟨after, chains.trans early late⟩

/-- Every run of the effect is a transition of `T`. -/
def Meets (T : S → List A → S → Prop) (body : Effect S A) : Prop :=
  ∀ s, T s (body s).2 (body s).1

section Rules
variable {T : S → List A → S → Prop} (chains : Chains T)
include chains

theorem meets_andThen {first second : Effect S A} (left : Meets T first)
    (right : Meets T second) : Meets T (andThen first second) := fun s =>
  chains.trans (left s) (right (first s).1)

theorem meets_when {condition : S → Bool} {body : Effect S A}
    (taken : ∀ s, condition s = true → T s (body s).2 (body s).1) :
    Meets T (when condition body) := by
  intro s
  by_cases holds : condition s = true
  · simp only [when, if_pos holds]
    exact taken s holds
  · simp only [when, if_neg holds]
    exact chains.refl s

theorem meets_forEach {items : List α} {body : α → Effect S A}
    (each : ∀ item ∈ items, Meets T (body item)) : Meets T (forEach items body) := by
  induction items with
  | nil => exact chains.refl
  | cons item rest ih =>
    exact meets_andThen chains (each item List.mem_cons_self)
      (ih fun other member => each other (List.mem_cons_of_mem _ member))

/-- A loop reaches each of its items through a transition and leaves it through one. -/
theorem forEach_reaches {items : List α} {body : α → Effect S A}
    (each : ∀ item ∈ items, Meets T (body item)) {item : α} (member : item ∈ items) (s : S) :
    ∃ early middle late, T s early middle ∧
      (forEach items body s).2 = early ++ ((body item middle).2 ++ late) ∧
      T (body item middle).1 late (forEach items body s).1 := by
  induction items generalizing s with
  | nil => cases member
  | cons first rest ih =>
    have others : ∀ other ∈ rest, Meets T (body other) := fun other inside =>
      each other (List.mem_cons_of_mem _ inside)
    rcases List.mem_cons.mp member with rfl | later
    · exact ⟨[], s, (forEach rest body (body item s).1).2, chains.refl s, rfl,
        meets_forEach chains others _⟩
    · obtain ⟨early, middle, late, reached, outputs, left⟩ := ih others later (body first s).1
      refine ⟨(body first s).2 ++ early, middle, late,
        chains.trans (each first List.mem_cons_self s) reached, ?_, left⟩
      rw [forEach_cons, andThen_apply, outputs, List.append_assoc]

/-- A loop whose body is a transition only from the states of `Inv`, which the
transitions keep. -/
theorem forEach_from (Inv : S → Prop) (items : List α) (body : α → Effect S A)
    (kept : ∀ {s t outputs}, Inv s → T s outputs t → Inv t)
    (each : ∀ item ∈ items, ∀ s, Inv s → T s (body item s).2 (body item s).1) :
    ∀ s, Inv s → T s (forEach items body s).2 (forEach items body s).1 := by
  induction items with
  | nil => exact fun s _ => chains.refl s
  | cons item rest ih =>
    intro s holds
    have first := each item List.mem_cons_self s holds
    exact chains.trans first
      (ih (fun other member => each other (List.mem_cons_of_mem _ member)) _ (kept holds first))

end Rules

/-- The closure of a transition relation under sequencing. -/
inductive Steps (R : S → List A → S → Prop) : S → List A → S → Prop
  | refl (s : S) : Steps R s [] s
  | step {s middle t : S} {first rest : List A} (taken : R s first middle)
      (later : Steps R middle rest t) : Steps R s (first ++ rest) t

section Steps
variable {R T : S → List A → S → Prop}

theorem Steps.single {s t : S} {outputs : List A} (taken : R s outputs t) : Steps R s outputs t := by
  have one := Steps.step taken (Steps.refl t)
  rwa [List.append_nil] at one

theorem steps_chains (R : S → List A → S → Prop) : Chains (Steps R) where
  refl := Steps.refl
  trans := by
    intro s middle t first second left right
    induction left with
    | refl s => exact right
    | step taken _ ih =>
      rw [List.append_assoc]
      exact Steps.step taken (ih right)

/-- A chaining relation that holds of single steps holds of their closure. -/
theorem Steps.fold (chains : Chains T) (each : ∀ {s t outputs}, R s outputs t → T s outputs t)
    {s t : S} {outputs : List A} (steps : Steps R s outputs t) : T s outputs t := by
  induction steps with
  | refl s => exact chains.refl s
  | step taken _ ih => exact chains.trans (each taken) ih

end Steps

end Effect

end BabelRs.Lib
