import BabelRs.Lib.Entries

/-!
# Unordered finite maps

An `AssocMap` is a duplicate-free entry list.  Its list order stands for nothing:
a program that enumerates such a map does so through a `HashOrder`, an arbitrary
rearrangement, so no result can lean on the order in which entries are stored.
-/

set_option autoImplicit false

namespace BabelRs.Lib

/-- An enumeration order of hash tables: any rearrangement of the stored entries. -/
structure HashOrder where
  iter : {α : Type} → List α → List α
  perm : ∀ {α : Type} (entries : List α), (iter entries).Perm entries

/-- Enumeration in storage order, for evaluating concrete runs. -/
def HashOrder.stored : HashOrder := ⟨id, fun entries => List.Perm.refl entries⟩

@[simp] theorem HashOrder.mem_iter (order : HashOrder) {α : Type} {x : α} {entries : List α} :
    x ∈ order.iter entries ↔ x ∈ entries := (order.perm entries).mem_iff

/-- A search that at most one element answers finds the same in every arrangement. -/
theorem find?_perm {α : Type} {p : α → Bool} {first second : List α} (same : first.Perm second)
    (unique : ∀ x ∈ first, ∀ y ∈ first, p x = true → p y = true → x = y) :
    first.find? p = second.find? p := by
  cases found : first.find? p with
  | none =>
    refine (List.find?_eq_none.mpr fun x inside => ?_).symm
    exact List.find?_eq_none.mp found x (same.mem_iff.mpr inside)
  | some x =>
    have inside := List.mem_of_find?_eq_some found
    have answers := List.find?_some found
    cases other : second.find? p with
    | none => exact absurd answers (List.find?_eq_none.mp other x (same.mem_iff.mp inside))
    | some y =>
      exact congrArg some (unique x inside y
        (same.mem_iff.mpr (List.mem_of_find?_eq_some other)) answers (List.find?_some other))

structure AssocMap (K V : Type) where
  entries : List (K × V)
  distinct : (keysOf entries).Nodup

namespace AssocMap

variable {K V W : Type}

def empty : AssocMap K V := ⟨[], List.nodup_nil⟩

instance : Inhabited (AssocMap K V) := ⟨empty⟩

def keys (m : AssocMap K V) : List K := keysOf m.entries

def values (m : AssocMap K V) : List V := m.entries.map Prod.snd

def len (m : AssocMap K V) : Nat := m.entries.length

def retain (m : AssocMap K V) (p : K → V → Bool) : AssocMap K V :=
  ⟨m.entries.filter fun entry => p entry.1 entry.2,
    m.distinct.sublist (keysOf_filter_sublist _ _)⟩

def mapValues (m : AssocMap K V) (f : K → V → W) : AssocMap K W :=
  ⟨m.entries.map fun entry => (entry.1, f entry.1 entry.2), by
    rw [keysOf_map]; exact m.distinct⟩

section Keyed
variable [DecidableEq K]

def get? (m : AssocMap K V) (key : K) : Option V := findKey key m.entries

def containsKey (m : AssocMap K V) (key : K) : Bool := (m.get? key).isSome

def putEntry (key : K) (value : V) : List (K × V) → List (K × V)
  | [] => [(key, value)]
  | (k, v) :: rest => if k = key then (key, value) :: rest else (k, v) :: putEntry key value rest

variable {key : K} {value : V} {entries : List (K × V)}

theorem mem_keysOf_putEntry {other : K} :
    other ∈ keysOf (putEntry key value entries) ↔ other = key ∨ other ∈ keysOf entries := by
  induction entries with
  | nil => simp [putEntry]
  | cons entry rest ih =>
    obtain ⟨k, v⟩ := entry
    by_cases same : k = key
    · simp [putEntry, same]
    · simp only [putEntry, if_neg same, keysOf_cons, List.mem_cons, ih]
      exact or_left_comm

theorem putEntry_distinct (key : K) (value : V) (distinct : (keysOf entries).Nodup) :
    (keysOf (putEntry key value entries)).Nodup := by
  induction entries with
  | nil => simp [putEntry]
  | cons entry rest ih =>
    obtain ⟨k, v⟩ := entry
    rw [keysOf_cons, List.nodup_cons] at distinct
    by_cases same : k = key
    · simpa [putEntry, same] using same ▸ distinct
    · simp only [putEntry, if_neg same, keysOf_cons, List.nodup_cons, mem_keysOf_putEntry,
        not_or]
      exact ⟨⟨same, distinct.1⟩, ih distinct.2⟩

def insert (m : AssocMap K V) (key : K) (value : V) : AssocMap K V :=
  ⟨putEntry key value m.entries, putEntry_distinct key value m.distinct⟩

def remove (m : AssocMap K V) (key : K) : AssocMap K V := m.retain fun k _ => decide (k ≠ key)

/-- `get_mut` on a present key; an absent key is left absent. -/
def modify (m : AssocMap K V) (key : K) (f : V → V) : AssocMap K V :=
  m.mapValues fun k value => if k = key then f value else value

@[simp] theorem get?_empty (key : K) : (empty : AssocMap K V).get? key = none := rfl

variable {m : AssocMap K V}

theorem get?_eq_some_iff :
    m.get? key = some value ↔ (key, value) ∈ m.entries :=
  ⟨mem_of_findKey, findKey_of_mem m.distinct⟩

theorem get?_eq_none_iff :
    m.get? key = none ↔ key ∉ m.keys := findKey_eq_none

theorem containsKey_iff :
    m.containsKey key = true ↔ ∃ value, m.get? key = some value := Option.isSome_iff_exists

theorem get?_insert (m : AssocMap K V) (key : K) (value : V) (other : K) :
    (m.insert key value).get? other = if key = other then some value else m.get? other := by
  have listed : ∀ entries : List (K × V), findKey other (putEntry key value entries) =
      if key = other then some value else findKey other entries := by
    intro entries
    induction entries with
    | nil => simp [putEntry, findKey]
    | cons entry rest ih =>
      obtain ⟨k, v⟩ := entry
      by_cases same : k = key
      · subst same
        by_cases here : k = other <;> simp [putEntry, findKey, here]
      · by_cases here : k = other
        · have apart : key ≠ other := fun equal => same (here.trans equal.symm)
          simp only [putEntry, if_neg same, findKey, if_pos here, if_neg apart]
        · simp only [putEntry, if_neg same, findKey, if_neg here, ih]
  exact listed m.entries

@[simp] theorem get?_insert_self (m : AssocMap K V) (key : K) (value : V) :
    (m.insert key value).get? key = some value := by
  simp [get?_insert]

theorem get?_insert_of_ne (m : AssocMap K V) {other : K} (value : V) (apart : key ≠ other) :
    (m.insert key value).get? other = m.get? other := by
  simp [get?_insert, apart]

theorem insert_insert (m : AssocMap K V) (key : K) (first second : V) :
    (m.insert key first).insert key second = m.insert key second := by
  have listed : ∀ entries : List (K × V),
      putEntry key second (putEntry key first entries) = putEntry key second entries := by
    intro entries
    induction entries with
    | nil => simp [putEntry]
    | cons entry rest ih =>
      obtain ⟨k, v⟩ := entry
      by_cases same : k = key
      · simp [putEntry, same]
      · simp [putEntry, same, ih]
  simp only [insert, listed]

@[simp] theorem get?_retain (m : AssocMap K V) (p : K → V → Bool) (key : K) :
    (m.retain p).get? key = (m.get? key).filter (p key) :=
  findKey_filter _ key m.distinct

/-- Dropping nothing by count is dropping nothing. -/
theorem get?_retain_of_len {p : K → V → Bool} (same : (m.retain p).len = m.len) (key : K) :
    (m.retain p).get? key = m.get? key := by
  have kept : m.entries.filter (fun entry => p entry.1 entry.2) = m.entries :=
    List.filter_eq_self.mpr (List.length_filter_eq_length_iff.mp same)
  simp only [get?, retain, kept]

omit [DecidableEq K] in
theorem len_retain_le (m : AssocMap K V) (p : K → V → Bool) : (m.retain p).len ≤ m.len :=
  List.length_filter_le _ _

theorem length_putEntry_of_mem (member : key ∈ keysOf entries) :
    (putEntry key value entries).length = entries.length := by
  induction entries with
  | nil => simp at member
  | cons entry rest ih =>
    obtain ⟨k, v⟩ := entry
    by_cases same : k = key
    · simp [putEntry, same]
    · have later : key ∈ keysOf rest := by simpa [Ne.symm same] using member
      simp [putEntry, same, ih later]

theorem len_insert_of_some {old : V} (known : m.get? key = some old) (value : V) :
    (m.insert key value).len = m.len :=
  length_putEntry_of_mem (mem_keysOf.mpr ⟨old, get?_eq_some_iff.mp known⟩)

theorem len_insert_le (m : AssocMap K V) (key : K) (value : V) :
    (m.insert key value).len ≤ m.len + 1 := by
  have listed : ∀ entries : List (K × V),
      (putEntry key value entries).length ≤ entries.length + 1 := by
    intro entries
    induction entries with
    | nil => simp [putEntry]
    | cons entry rest ih =>
      obtain ⟨k, v⟩ := entry
      by_cases same : k = key
      · simp [putEntry, same]
      · simpa [putEntry, same] using ih
  exact listed m.entries

theorem get?_remove (m : AssocMap K V) (key other : K) :
    (m.remove key).get? other = if other = key then none else m.get? other := by
  rw [remove, get?_retain]
  by_cases same : other = key
  · subst same
    cases m.get? other <;> simp
  · cases m.get? other <;> simp [same]

@[simp] theorem get?_mapValues (m : AssocMap K V) (f : K → V → W) (key : K) :
    (m.mapValues f).get? key = (m.get? key).map (f key) := findKey_map f key m.entries

theorem get?_modify (m : AssocMap K V) (key : K) (f : V → V) (other : K) :
    (m.modify key f).get? other =
      (m.get? other).map fun value => if other = key then f value else value :=
  get?_mapValues m _ other

theorem mem_values_iff :
    value ∈ m.values ↔ ∃ key, m.get? key = some value := by
  simp [values, get?_eq_some_iff]

end Keyed

end AssocMap

end BabelRs.Lib
