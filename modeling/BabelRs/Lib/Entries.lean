import Mathlib.Data.List.Nodup
import Mathlib.Data.List.Pairwise

/-!
# Keyed entry lists

Both finite maps of this development store a list of key/value entries whose
keys are pairwise distinct.  This file holds the operations on the raw list and
the lookup equation of each one; the maps wrap them with their invariant.
-/

set_option autoImplicit false

namespace BabelRs.Lib

variable {K V W : Type}

def keysOf (entries : List (K × V)) : List K := entries.map Prod.fst

@[simp] theorem keysOf_nil : keysOf ([] : List (K × V)) = [] := rfl

@[simp] theorem keysOf_cons (entry : K × V) (rest : List (K × V)) :
    keysOf (entry :: rest) = entry.1 :: keysOf rest := rfl

variable {entries : List (K × V)} {key : K}

theorem mem_keysOf :
    key ∈ keysOf entries ↔ ∃ value, (key, value) ∈ entries := by
  simp [keysOf]

section Lookup
variable [DecidableEq K]

/-- The value filed under `key`; the first one, though the maps never hold two. -/
def findKey (key : K) : List (K × V) → Option V
  | [] => none
  | (k, v) :: rest => if k = key then some v else findKey key rest

theorem mem_of_findKey {value : V} (found : findKey key entries = some value) :
    (key, value) ∈ entries := by
  induction entries with
  | nil => simp [findKey] at found
  | cons entry rest ih =>
    obtain ⟨k, v⟩ := entry
    by_cases same : k = key
    · simp only [findKey, if_pos same, Option.some.injEq] at found
      subst same found
      exact List.mem_cons_self
    · simp only [findKey, if_neg same] at found
      exact List.mem_cons_of_mem _ (ih found)

theorem findKey_of_mem {value : V} (distinct : (keysOf entries).Nodup)
    (member : (key, value) ∈ entries) :
    findKey key entries = some value := by
  induction entries with
  | nil => simp at member
  | cons entry rest ih =>
    obtain ⟨k, v⟩ := entry
    rw [keysOf_cons, List.nodup_cons] at distinct
    rcases List.mem_cons.mp member with same | later
    · obtain ⟨rfl, rfl⟩ := Prod.mk.inj same
      simp [findKey]
    · have different : k ≠ key := by
        intro same
        exact distinct.1 (same ▸ mem_keysOf.mpr ⟨value, later⟩)
      simp only [findKey, if_neg different]
      exact ih distinct.2 later

theorem findKey_eq_none :
    findKey key entries = none ↔ key ∉ keysOf entries := by
  induction entries with
  | nil => simp [findKey]
  | cons entry rest ih =>
    obtain ⟨k, v⟩ := entry
    by_cases same : k = key
    · simp [findKey, same]
    · simp only [findKey, if_neg same, ih, keysOf_cons, List.mem_cons, not_or]
      exact ⟨fun absent => ⟨Ne.symm same, absent⟩, fun both => both.2⟩

theorem findKey_filter (p : K × V → Bool) (key : K) (distinct : (keysOf entries).Nodup) :
    findKey key (entries.filter p) = (findKey key entries).filter fun value => p (key, value) := by
  induction entries with
  | nil => rfl
  | cons entry rest ih =>
    obtain ⟨k, v⟩ := entry
    rw [keysOf_cons, List.nodup_cons] at distinct
    by_cases same : k = key
    · subst same
      have absent : findKey k (rest.filter p) = none := by
        rw [ih distinct.2, findKey_eq_none.mpr distinct.1]
        rfl
      by_cases kept : p (k, v) = true
      · simp [findKey, kept, Option.filter_some]
      · simp [findKey, kept, absent, Option.filter_some]
    · by_cases kept : p (k, v) = true
      · simp [findKey, kept, same, ih distinct.2]
      · simp [findKey, kept, same, ih distinct.2]

theorem findKey_map (f : K → V → W) (key : K) (entries : List (K × V)) :
    findKey key (entries.map fun entry => (entry.1, f entry.1 entry.2)) =
      (findKey key entries).map (f key) := by
  induction entries with
  | nil => rfl
  | cons entry rest ih =>
    obtain ⟨k, v⟩ := entry
    by_cases same : k = key
    · subst same; simp [findKey]
    · simp only [List.map_cons, findKey, if_neg same, ih]

end Lookup

theorem keysOf_filter_sublist (p : K × V → Bool) (entries : List (K × V)) :
    (keysOf (entries.filter p)).Sublist (keysOf entries) :=
  (List.filter_sublist).map Prod.fst

theorem keysOf_map (f : K → V → W) (entries : List (K × V)) :
    keysOf (entries.map fun entry => (entry.1, f entry.1 entry.2)) = keysOf entries := by
  simp [keysOf, Function.comp_def]

end BabelRs.Lib
