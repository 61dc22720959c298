import Mathlib.Data.List.Basic

/-!
# Operations that may panic

Indexing, slicing and copying into a fixed buffer end in a panic when they leave
their bounds.  A checked computation returns, fails with an error of its own, or panics.
-/

set_option autoImplicit false

namespace BabelRs.Lib

/-! ## Sequencing -/

section Sequencing

variable {E S A B : Type}

theorem bind_eq_ok {value : Except E A} {next : A → Except E B} {result : B} :
    (value >>= next) = .ok result ↔ ∃ produced, value = .ok produced ∧ next produced = .ok result := by
  cases value with
  | error failure => simp [bind, Except.bind]
  | ok produced => simp [bind, Except.bind]

/-- What every successful step of a loop keeps, a successful loop keeps. -/
theorem foldlM_kept {step : S → A → Except E S} (Inv : List A → S → Prop)
    (kept : ∀ done s item t, Inv done s → step s item = .ok t → Inv (done ++ [item]) t)
    {done items : List A} {s t : S} (before : Inv done s) (loop : items.foldlM step s = .ok t) :
    Inv (done ++ items) t := by
  induction items generalizing done s with
  | nil =>
    obtain rfl : s = t := Except.ok.inj loop
    simpa using before
  | cons item items ih =>
    obtain ⟨middle, stepped, rest⟩ := bind_eq_ok.mp loop
    simpa using ih (kept done s item middle before stepped) rest

theorem map_eq_ok {value : Except E A} {f : A → B} {result : B} :
    value.map f = .ok result ↔ ∃ produced, value = .ok produced ∧ f produced = result := by
  cases value with
  | error failure => simp [Except.map]
  | ok produced => simp [Except.map]

@[simp] theorem ok_bind (value : A) (next : A → Except E B) :
    (Except.ok value >>= next) = next value := rfl

variable {C : Type}

theorem map_bind (value : Except E A) (next : A → Except E B) (f : B → C) :
    (value >>= next).map f = value >>= fun produced => (next produced).map f := by
  cases value with
  | error failure => rfl
  | ok produced => rfl

theorem bind_map (value : Except E A) (f : A → B) (next : B → Except E C) :
    value.map f >>= next = value >>= fun produced => next (f produced) := by
  cases value with
  | error failure => rfl
  | ok produced => rfl

/-- A loop whose steps commute with a change of view commutes with it. -/
theorem foldlM_map_view {R : Type} {step : S → A → Except E S} {other : R → C → Except E R}
    (view : S → R) (relabel : A → C)
    (commutes : ∀ s item, other (view s) (relabel item) = (step s item).map view) (items : List A)
    (s : S) :
    (items.map relabel).foldlM other (view s) = (items.foldlM step s).map view := by
  induction items generalizing s with
  | nil => rfl
  | cons item items ih =>
    rw [List.map_cons, List.foldlM_cons, List.foldlM_cons, commutes, bind_map, map_bind]
    exact congrArg _ (funext fun middle => ih middle)

end Sequencing

/-! ## Panics -/

inductive Fault (E : Type) where
  | error (reason : E)
  | panic
deriving DecidableEq, Repr

abbrev Checked (E A : Type) := Except (Fault E) A

namespace Checked

variable {E A B : Type}

def fail (reason : E) : Checked E A := .error (.error reason)

def panics : Checked E A := .error .panic

/-- `ok_or`. -/
def orFail (reason : E) : Option A → Checked E A
  | some value => .ok value
  | none => fail reason

/-- `data[i]`. -/
def index (data : List A) (i : Nat) : Checked E A :=
  match data[i]? with
  | some value => .ok value
  | none => panics

/-- `data[start..stop]`. -/
def slice (data : List A) (start stop : Nat) : Checked E (List A) :=
  if start ≤ stop ∧ stop ≤ data.length then .ok ((data.take stop).drop start) else panics

/-- `data[start..]`. -/
def sliceFrom (data : List A) (start : Nat) : Checked E (List A) := slice data start data.length

/-- `a - b` of unsigned numbers. -/
def sub (a b : Nat) : Checked E Nat := if b ≤ a then .ok (a - b) else panics

/-- `value << amount` of an octet. -/
def shiftLeft (value : UInt8) (amount : Nat) : Checked E UInt8 :=
  if amount < 8 then .ok (value <<< UInt8.ofNat amount) else panics

/-- `buffer[start..stop].copy_from_slice(data)`. -/
def copyFromSlice (buffer : List A) (start stop : Nat) (data : List A) : Checked E (List A) :=
  if start ≤ stop ∧ stop ≤ buffer.length ∧ data.length = stop - start then
    .ok (buffer.take start ++ data ++ buffer.drop stop)
  else panics

/-- A buffer of `size` octets, all zero behind the ones copied to its front. -/
def fill (size : Nat) (front : List UInt8) : Checked E (List UInt8) :=
  if front.length ≤ size then .ok (front ++ List.replicate (size - front.length) 0) else panics

@[simp] theorem orFail_some (reason : E) (value : A) :
    orFail reason (some value) = .ok value := rfl

theorem orFail_eq_ok {reason : E} {found : Option A} {value : A} :
    orFail reason found = .ok value ↔ found = some value := by
  cases found <;> simp [orFail, fail]

variable {start stop : Nat}

theorem slice_append {front body rest : List A} (begins : front.length = start)
    (ends : front.length + body.length = stop) :
    (slice (front ++ (body ++ rest)) start stop : Checked E (List A)) = .ok body := by
  subst begins ends
  have inside : front.length ≤ front.length + body.length ∧
      front.length + body.length ≤ (front ++ (body ++ rest)).length := by
    simp only [List.length_append]
    omega
  rw [slice, if_pos inside, List.take_length_add_append, List.drop_left, List.take_left]

theorem fill_ok {size : Nat} {front : List UInt8} (fits : front.length ≤ size) :
    (fill size front : Checked E (List UInt8)) =
      .ok (front ++ List.replicate (size - front.length) 0) := if_pos fits

theorem sub_ok {a b : Nat} (fits : b ≤ a) : (sub a b : Checked E Nat) = .ok (a - b) := if_pos fits

variable (E) in
theorem index_append_cons (front : List A) (value : A) (rest : List A) :
    index (front ++ value :: rest) front.length = (.ok value : Checked E A) := by
  simp [index]

variable {data : List A}

theorem index_ok {i : Nat} {value : A} (found : data[i]? = some value) :
    (index data i : Checked E A) = .ok value := by
  rw [index, found]

theorem slice_ok (inside : start ≤ stop ∧ stop ≤ data.length) :
    (slice data start stop : Checked E (List A)) = .ok ((data.take stop).drop start) := if_pos inside

/-! ## Computations that do not panic -/

/-- The computation returns or fails with an error of its own. -/
def Safe (result : Checked E A) : Prop := result ≠ .error .panic

theorem safe_ok (value : A) : Safe (.ok value : Checked E A) := by
  intro impossible
  cases impossible

theorem safe_pure (value : A) : Safe (pure value : Checked E A) := safe_ok value

theorem safe_fail (reason : E) : Safe (fail reason : Checked E A) := by
  intro impossible
  cases impossible

theorem safe_orFail (reason : E) (value : Option A) : Safe (orFail reason value) := by
  cases value with
  | none => exact safe_fail reason
  | some value => exact safe_ok value

theorem safe_bind {result : Checked E A} {next : A → Checked E B} (first : Safe result)
    (then_ : ∀ value, result = .ok value → Safe (next value)) : Safe (result >>= next) := by
  cases result with
  | error fault => exact fun impossible => first (congrArg Except.error (Except.error.inj impossible))
  | ok value => exact then_ value rfl

theorem safe_index {i : Nat} (inside : i < data.length) :
    Safe (index data i : Checked E A) := by
  rw [index_ok (List.getElem?_eq_getElem inside)]
  exact safe_ok _

theorem safe_slice (inside : start ≤ stop ∧ stop ≤ data.length) :
    Safe (slice data start stop : Checked E (List A)) := by
  rw [slice_ok inside]
  exact safe_ok _

theorem length_of_slice {piece : List A}
    (cut : (slice data start stop : Checked E (List A)) = .ok piece) :
    piece.length = stop - start := by
  unfold slice at cut
  split at cut
  · obtain rfl := Except.ok.inj cut
    simp
    omega
  · cases cut

theorem stop_le_of_slice {piece : List A}
    (cut : (slice data start stop : Checked E (List A)) = .ok piece) : stop ≤ data.length := by
  unfold slice at cut
  split at cut
  · exact (‹_ ∧ _›).2
  · cases cut

/-- Every step of the loop that is reached is safe. -/
theorem safe_foldlM {S : Type} {step : S → A → Checked E S} (safe : ∀ s item, Safe (step s item))
    (items : List A) (s : S) : Safe (items.foldlM step s) := by
  induction items generalizing s with
  | nil => exact safe_ok s
  | cons item items ih =>
    exact safe_bind (safe s item) fun next _ => ih next

end Checked

end BabelRs.Lib
