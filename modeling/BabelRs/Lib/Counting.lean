import BabelRs.Lib.AssocMap
import Mathlib.Data.List.Perm.Subperm

/-!
# Counting the keys of a map

How many keys of a map satisfy a predicate depends on which keys it has, not on
its values or its storage order.
-/

set_option autoImplicit false

namespace BabelRs.Lib.AssocMap

variable {K V W : Type}

def countKeys (m : AssocMap K V) (p : K → Bool) : Nat := m.entries.countP fun entry => p entry.1

theorem len_eq_countKeys (m : AssocMap K V) : m.len = m.countKeys fun _ => true := by
  simp [len, countKeys]

theorem countKeys_eq_length (m : AssocMap K V) (p : K → Bool) :
    m.countKeys p = (m.keys.filter p).length := by
  rw [countKeys, keys, keysOf, ← List.countP_eq_length_filter, List.countP_map]
  rfl

/-- The counted keys of a map and those it loses. -/
theorem countKeys_retain_add (m : AssocMap K V) (keep : K → V → Bool) (p : K → Bool) :
    (m.retain keep).countKeys p +
      (m.entries.countP fun entry => p entry.1 && !keep entry.1 entry.2) = m.countKeys p := by
  rw [countKeys, countKeys, retain, List.countP_filter]
  induction m.entries with
  | nil => rfl
  | cons entry rest ih =>
    simp only [List.countP_cons]
    cases p entry.1 <;> cases keep entry.1 entry.2 <;> simp <;> omega

section Keyed
variable [DecidableEq K]

variable {m : AssocMap K V} {key : K}

theorem mem_keys_iff : key ∈ m.keys ↔ m.containsKey key = true := by
  rw [containsKey, Option.isSome_iff_ne_none, ne_eq, get?_eq_none_iff, not_not]

variable {n : AssocMap K W} {p : K → Bool}

theorem countKeys_mono
    (fewer : ∀ key, p key = true → n.containsKey key = true → m.containsKey key = true) :
    n.countKeys p ≤ m.countKeys p := by
  rw [countKeys_eq_length, countKeys_eq_length]
  refine (List.subperm_of_subset (n.distinct.filter p) fun key listed => ?_).length_le
  obtain ⟨stored, counted⟩ := List.mem_filter.mp listed
  exact List.mem_filter.mpr ⟨mem_keys_iff.mpr (fewer key counted (mem_keys_iff.mp stored)), counted⟩

theorem countKeys_congr (same : ∀ key, p key = true → n.containsKey key = m.containsKey key) :
    n.countKeys p = m.countKeys p :=
  Nat.le_antisymm (countKeys_mono fun key counted stored => same key counted ▸ stored)
    (countKeys_mono fun key counted stored => (same key counted).symm ▸ stored)

theorem countKeys_eq_zero (absent : ∀ key, p key = true → m.containsKey key = false) :
    m.countKeys p = 0 := by
  have same : m.countKeys p = (empty : AssocMap K V).countKeys p :=
    countKeys_congr fun key counted => absent key counted
  exact same

theorem countKeys_add_key (absent : m.containsKey key = false)
    (same : ∀ other, n.containsKey other = (decide (other = key) || m.containsKey other))
    (p : K → Bool) : n.countKeys p = m.countKeys p + if p key then 1 else 0 := by
  have fresh : key ∉ m.keys := fun listed => by
    rw [mem_keys_iff, absent] at listed
    cases listed
  have listed : n.keys.Perm (key :: m.keys) := by
    refine (List.perm_ext_iff_of_nodup n.distinct
      (List.nodup_cons.mpr ⟨fresh, m.distinct⟩)).mpr fun other => ?_
    change other ∈ n.keys ↔ _
    rw [mem_keys_iff, same, List.mem_cons, mem_keys_iff]
    simp
  rw [countKeys_eq_length, countKeys_eq_length, (listed.filter p).length_eq, List.filter_cons]
  split <;> rfl

theorem containsKey_insert (m : AssocMap K V) (key : K) (value : V) (other : K) :
    (m.insert key value).containsKey other = (decide (other = key) || m.containsKey other) := by
  rw [containsKey, get?_insert, containsKey]
  by_cases here : key = other
  · simp [here]
  · simp [here, Ne.symm here]

theorem containsKey_mapValues (m : AssocMap K V) (f : K → V → W) (key : K) :
    (m.mapValues f).containsKey key = m.containsKey key := by
  simp [containsKey]

theorem containsKey_modify (m : AssocMap K V) (key : K) (f : V → V) (other : K) :
    (m.modify key f).containsKey other = m.containsKey other :=
  containsKey_mapValues m _ other

theorem countKeys_insert_fresh (absent : m.containsKey key = false) (value : V) (p : K → Bool) :
    (m.insert key value).countKeys p = m.countKeys p + if p key then 1 else 0 :=
  countKeys_add_key absent (containsKey_insert m key value) p

theorem countKeys_insert_stored (stored : m.containsKey key = true) (value : V) (p : K → Bool) :
    (m.insert key value).countKeys p = m.countKeys p := by
  refine countKeys_congr fun other _ => ?_
  rw [containsKey_insert]
  by_cases here : other = key
  · simp [here, stored]
  · simp [here]

theorem countKeys_remove_stored (stored : m.containsKey key = true) (p : K → Bool) :
    (m.remove key).countKeys p + (if p key then 1 else 0) = m.countKeys p := by
  refine (countKeys_add_key (n := m) (m := m.remove key) ?_ (fun other => ?_) p).symm
  · simp [containsKey, get?_remove]
  · rw [containsKey, containsKey, get?_remove]
    by_cases here : other = key
    · rw [here, decide_eq_true rfl, Bool.true_or]
      exact stored
    · simp [here]

end Keyed

end BabelRs.Lib.AssocMap
