import BabelRs.Lib.AssocMap
import Mathlib.Order.Lattice
import Mathlib.Data.List.Induction
import Mathlib.Data.List.Perm.Subperm

/-!
# Ordered finite maps

An `OrdMap` keeps its entries strictly ascending by key, so that enumeration
order is part of the value and equal lookups make equal maps.
-/

set_option autoImplicit false

namespace BabelRs.Lib

def Ascending {K V : Type} [LinearOrder K] (entries : List (K × V)) : Prop :=
  entries.Pairwise fun first second => first.1 < second.1

theorem Ascending.distinct {K V : Type} [LinearOrder K] {entries : List (K × V)}
    (ascending : Ascending entries) : (keysOf entries).Nodup := by
  rw [keysOf, List.Nodup, List.pairwise_map]
  exact ascending.imp fun below => ne_of_lt below

structure OrdMap (K V : Type) [LinearOrder K] where
  entries : List (K × V)
  ascending : Ascending entries

namespace OrdMap

variable {K V : Type} [LinearOrder K]

theorem eq_of_entries {first second : OrdMap K V} (same : first.entries = second.entries) :
    first = second := by
  cases first; cases second; cases same; rfl

instance [DecidableEq V] : DecidableEq (OrdMap K V) := fun first second =>
  decidable_of_iff (first.entries = second.entries)
    ⟨eq_of_entries, fun same => congrArg OrdMap.entries same⟩

def empty : OrdMap K V := ⟨[], List.Pairwise.nil⟩

instance : Inhabited (OrdMap K V) := ⟨empty⟩

def keys (m : OrdMap K V) : List K := keysOf m.entries

def values (m : OrdMap K V) : List V := m.entries.map Prod.snd

def len (m : OrdMap K V) : Nat := m.entries.length

def get? (m : OrdMap K V) (key : K) : Option V := findKey key m.entries

def containsKey (m : OrdMap K V) (key : K) : Bool := (m.get? key).isSome

def retain (m : OrdMap K V) (p : K → V → Bool) : OrdMap K V :=
  ⟨m.entries.filter fun entry => p entry.1 entry.2, m.ascending.sublist List.filter_sublist⟩

def mapValues {W : Type} (m : OrdMap K V) (f : K → V → W) : OrdMap K W :=
  ⟨m.entries.map fun entry => (entry.1, f entry.1 entry.2),
    by rw [Ascending, List.pairwise_map]; exact m.ascending⟩

def putAscending (key : K) (value : V) : List (K × V) → List (K × V)
  | [] => [(key, value)]
  | (k, v) :: rest =>
    if key < k then (key, value) :: (k, v) :: rest
    else if k = key then (key, value) :: rest
    else (k, v) :: putAscending key value rest

variable {key : K} {value : V}

theorem key_of_mem_putAscending {entry : K × V} {entries : List (K × V)}
    (member : entry ∈ putAscending key value entries) :
    entry.1 = key ∨ entry ∈ entries := by
  induction entries with
  | nil =>
    simp only [putAscending, List.mem_singleton] at member
    exact Or.inl (congrArg Prod.fst member)
  | cons head rest ih =>
    simp only [putAscending] at member
    split_ifs at member
    · rcases List.mem_cons.mp member with rfl | later
      · exact Or.inl rfl
      · exact Or.inr later
    · rcases List.mem_cons.mp member with rfl | later
      · exact Or.inl rfl
      · exact Or.inr (List.mem_cons_of_mem _ later)
    · rcases List.mem_cons.mp member with rfl | later
      · exact Or.inr List.mem_cons_self
      · exact (ih later).imp_right (List.mem_cons_of_mem _)

theorem putAscending_ascending (key : K) (value : V) {entries : List (K × V)}
    (ascending : Ascending entries) : Ascending (putAscending key value entries) := by
  induction entries with
  | nil => exact List.pairwise_singleton _ _
  | cons head rest ih =>
    obtain ⟨above, tail⟩ := List.pairwise_cons.mp ascending
    simp only [putAscending]
    split_ifs with below same
    · refine List.pairwise_cons.mpr ⟨?_, ascending⟩
      intro entry member
      rcases List.mem_cons.mp member with rfl | later
      · exact below
      · exact below.trans (above entry later)
    · refine List.pairwise_cons.mpr ⟨?_, tail⟩
      intro entry member
      exact same ▸ above entry member
    · refine List.pairwise_cons.mpr ⟨?_, ih tail⟩
      intro entry member
      rcases key_of_mem_putAscending member with equal | later
      · exact equal ▸ lt_of_le_of_ne (not_lt.mp below) same
      · exact above entry later

def insert (m : OrdMap K V) (key : K) (value : V) : OrdMap K V :=
  ⟨putAscending key value m.entries, putAscending_ascending key value m.ascending⟩

def remove (m : OrdMap K V) (key : K) : OrdMap K V := m.retain fun k _ => decide (k ≠ key)

/-- `get_mut` on a present key; an absent key is left absent. -/
def modify (m : OrdMap K V) (key : K) (f : V → V) : OrdMap K V :=
  m.mapValues fun k value => if k = key then f value else value

@[simp] theorem get?_empty (key : K) : (empty : OrdMap K V).get? key = none := rfl

variable {m : OrdMap K V}

theorem get?_eq_some_iff :
    m.get? key = some value ↔ (key, value) ∈ m.entries :=
  ⟨mem_of_findKey, findKey_of_mem m.ascending.distinct⟩

theorem get?_eq_none_iff :
    m.get? key = none ↔ key ∉ m.keys := findKey_eq_none

theorem containsKey_iff :
    m.containsKey key = true ↔ ∃ value, m.get? key = some value := Option.isSome_iff_exists

theorem containsKey_eq_false :
    m.containsKey key = false ↔ m.get? key = none := by
  simp [containsKey]

theorem mem_keys_iff :
    key ∈ m.keys ↔ m.containsKey key = true := by
  rw [containsKey_iff, keys, mem_keysOf]
  exact exists_congr fun value => get?_eq_some_iff.symm

theorem get?_insert (m : OrdMap K V) (key : K) (value : V) (other : K) :
    (m.insert key value).get? other = if key = other then some value else m.get? other := by
  have listed : ∀ entries : List (K × V), Ascending entries →
      findKey other (putAscending key value entries) =
        if key = other then some value else findKey other entries := by
    intro entries ascending
    induction entries with
    | nil => simp [putAscending, findKey]
    | cons head rest ih =>
      obtain ⟨k, v⟩ := head
      obtain ⟨above, tail⟩ := List.pairwise_cons.mp ascending
      by_cases below : key < k
      · simp only [putAscending, if_pos below, findKey]
      · by_cases same : k = key
        · subst same
          simp only [putAscending, if_neg below, if_true, findKey]
          by_cases here : k = other <;> simp [here]
        · simp only [putAscending, if_neg below, if_neg same, findKey, ih tail]
          by_cases here : k = other
          · have apart : key ≠ other := fun equal => same (here.trans equal.symm)
            simp [here, apart]
          · simp [here]
  exact listed m.entries m.ascending

@[simp] theorem get?_insert_self (m : OrdMap K V) (key : K) (value : V) :
    (m.insert key value).get? key = some value := by
  simp [get?_insert]

theorem get?_insert_of_ne (m : OrdMap K V) {other : K} (value : V) (apart : key ≠ other) :
    (m.insert key value).get? other = m.get? other := by
  simp [get?_insert, apart]

@[simp] theorem get?_retain (m : OrdMap K V) (p : K → V → Bool) (key : K) :
    (m.retain p).get? key = (m.get? key).filter (p key) :=
  findKey_filter _ key m.ascending.distinct

variable {p : K → V → Bool}

theorem get?_retain_of_none (absent : m.get? key = none) : (m.retain p).get? key = none := by
  rw [get?_retain, absent]
  rfl

theorem containsKey_of_retain (found : (m.retain p).containsKey key = true) :
    m.containsKey key = true := by
  obtain ⟨value, kept⟩ := containsKey_iff.mp found
  rw [get?_retain, Option.filter_eq_some_iff] at kept
  exact containsKey_iff.mpr ⟨value, kept.1⟩

/-- A map of the same size whose keys all occur in another has the same keys. -/
theorem containsKey_of_len {W : Type} {n : OrdMap K W} (size : n.len = m.len)
    (within : ∀ key, m.containsKey key = true → n.containsKey key = true)
    (present : n.containsKey key = true) : m.containsKey key = true := by
  have inside : m.keys ⊆ n.keys := fun other listed =>
    mem_keys_iff.mpr (within other (mem_keys_iff.mp listed))
  have shorter : n.keys.length ≤ m.keys.length := by
    simp only [keys, keysOf, List.length_map]
    exact Nat.le_of_eq size
  have same : m.keys.Perm n.keys :=
    (List.subperm_of_subset m.ascending.distinct inside).perm_of_length_le shorter
  exact mem_keys_iff.mp (same.mem_iff.mpr (mem_keys_iff.mpr present))

theorem len_eq_of_keys {n : OrdMap K V} (same : m.keys = n.keys) : m.len = n.len := by
  have lengths := congrArg List.length same
  simpa [keys, keysOf, len] using lengths

/-- Dropping nothing by count is dropping nothing. -/
theorem retain_eq_of_len (same : (m.retain p).len = m.len) :
    m.retain p = m := by
  refine eq_of_entries (List.filter_eq_self.mpr ?_)
  exact List.length_filter_eq_length_iff.mp same

theorem get?_remove (m : OrdMap K V) (key other : K) :
    (m.remove key).get? other = if other = key then none else m.get? other := by
  rw [remove, get?_retain]
  by_cases same : other = key
  · subst same
    cases m.get? other <;> simp
  · cases m.get? other <;> simp [same]

@[simp] theorem get?_mapValues {W : Type} (m : OrdMap K V) (f : K → V → W) (key : K) :
    (m.mapValues f).get? key = (m.get? key).map (f key) := findKey_map f key m.entries

theorem get?_modify (m : OrdMap K V) (key : K) (f : V → V) (other : K) :
    (m.modify key f).get? other =
      (m.get? other).map fun value => if other = key then f value else value :=
  get?_mapValues m _ other

theorem mem_values_iff :
    value ∈ m.values ↔ ∃ key, m.get? key = some value := by
  simp [values, get?_eq_some_iff]

theorem get?_foldl_insert (value : K → V) (inserted : List K) (m : OrdMap K V) (key : K) :
    (inserted.foldl (fun m key => m.insert key (value key)) m).get? key =
      if key ∈ inserted then some (value key) else m.get? key := by
  induction inserted generalizing m with
  | nil => simp
  | cons first rest ih =>
    rw [List.foldl_cons, ih, get?_insert]
    by_cases same : first = key
    · simp [same]
    · have apart : key ≠ first := fun equal => same equal.symm
      simp [same, apart]

variable {α : Type}

/-- A loop that inserts a value per item: the last item of a key counts. -/
theorem get?_foldl_put (keyOf : α → K) (valueOf : α → V) (items : List α) (m : OrdMap K V) (key : K) :
    (items.foldl (fun m item => m.insert (keyOf item) (valueOf item)) m).get? key =
      ((items.reverse.find? fun item => decide (keyOf item = key)).map valueOf).or (m.get? key) := by
  induction items using List.reverseRecOn with
  | nil => simp
  | append_singleton front item ih =>
    rw [List.foldl_append, List.foldl_cons, List.foldl_nil, get?_insert, List.reverse_append,
      List.reverse_singleton, List.singleton_append, List.find?_cons]
    by_cases same : keyOf item = key
    · simp [same]
    · simp only [same, if_false, decide_false]
      exact ih

theorem get?_foldl_entries (upper m : OrdMap K V) (key : K) :
    (upper.entries.foldl (fun m entry => m.insert entry.1 entry.2) m).get? key =
      (upper.get? key).or (m.get? key) := by
  rw [get?_foldl_put Prod.fst Prod.snd]
  congr 1
  ext value
  rw [get?_eq_some_iff]
  simp only [Option.map_eq_some_iff]
  constructor
  · rintro ⟨⟨k, v⟩, found, rfl⟩
    have same : k = key := by simpa using List.find?_some found
    exact same ▸ List.mem_reverse.mp (List.mem_of_find?_eq_some found)
  · intro member
    cases found : upper.entries.reverse.find? fun entry => decide (entry.1 = key) with
    | none =>
      have absent := List.find?_eq_none.mp found (key, value) (List.mem_reverse.mpr member)
      simp at absent
    | some entry =>
      refine ⟨entry, rfl, ?_⟩
      have same : entry.1 = key := by simpa using List.find?_some found
      have inside : (key, entry.2) ∈ upper.entries :=
        same ▸ List.mem_reverse.mp (List.mem_of_find?_eq_some found)
      exact Option.some.inj ((get?_eq_some_iff.mpr inside).symm.trans (get?_eq_some_iff.mpr member))

/-- Maps with the same lookups are the same map. -/
theorem ext_get? {first second : OrdMap K V}
    (same : ∀ key, first.get? key = second.get? key) : first = second := by
  have nodup : ∀ m : OrdMap K V, m.entries.Nodup := fun m => m.ascending.distinct.of_map _
  have rearranged : first.entries.Perm second.entries := by
    rw [List.perm_ext_iff_of_nodup (nodup first) (nodup second)]
    rintro ⟨key, value⟩
    rw [← get?_eq_some_iff, ← get?_eq_some_iff, same key]
  have antisymmetric : ∀ a b : K × V, a ∈ first.entries → b ∈ second.entries →
      a.1 < b.1 → b.1 < a.1 → a = b := by
    intro a b _ _ below above
    exact absurd below (not_lt.mpr above.le)
  exact eq_of_entries
    (List.Perm.eq_of_pairwise antisymmetric first.ascending second.ascending rearranged)

/-! ## Grouping a list by key -/

def pushGroup {α : Type} (keyOf : α → K) (groups : OrdMap K (List α)) (item : α) :
    OrdMap K (List α) :=
  groups.insert (keyOf item) ((groups.get? (keyOf item)).getD [] ++ [item])

def groupBy {α : Type} (keyOf : α → K) (items : List α) : OrdMap K (List α) :=
  items.foldl (pushGroup keyOf) empty

theorem get?_foldl_pushGroup (keyOf : α → K) (items : List α) (groups : OrdMap K (List α)) (key : K) :
    (items.foldl (pushGroup keyOf) groups).get? key =
      if items.filter (fun item => keyOf item = key) = [] then groups.get? key
      else some ((groups.get? key).getD [] ++ items.filter fun item => keyOf item = key) := by
  induction items generalizing groups with
  | nil => simp
  | cons item rest ih =>
    rw [List.foldl_cons, ih, pushGroup, get?_insert]
    by_cases same : keyOf item = key
    · subst same
      by_cases last : rest.filter (fun other => decide (keyOf other = keyOf item)) = []
      · simp [last]
      · simp [last]
    · simp [same]

theorem get?_groupBy (keyOf : α → K) (items : List α) (key : K) :
    (groupBy keyOf items).get? key =
      if items.filter (fun item => keyOf item = key) = [] then none
      else some (items.filter fun item => keyOf item = key) := by
  rw [groupBy, get?_foldl_pushGroup]
  simp

end OrdMap

end BabelRs.Lib
