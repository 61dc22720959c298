import Mathlib.Data.List.Nodup

/-!
# Replay protection by indexed counters and challenges

A guard remembers the index a sender last proved to be its own, one counter per
channel and the nonce of an outstanding challenge.  Items are taken from an honest
ledger whose counters rise within each index.  The guard lets an item in when its
counter is above the channel's, or when it answers the outstanding challenge; in the
second case the guard starts over from the item's own index and counter.

An answer may be about the index the guard already holds.  Such an answer must not
be below either counter: the ledger alone does not give that, because items signed
after the answer may have overtaken it.
-/

set_option autoImplicit false

namespace BabelRs.Lib

structure ReplayGuard (I N : Type) where
  index : Option I
  counter : Bool → Nat
  nonce : Option N

namespace ReplayGuard

variable {D I N : Type}

/-- A guard that knows nothing, or has forgotten everything. -/
def blank : ReplayGuard I N := ⟨none, fun _ => 0, none⟩

structure Labels (D I N : Type) where
  index : D → I
  counter : D → Nat
  channel : D → Bool
  answers : D → N → Prop

variable (labels : Labels D I N)

/-- `later` exceeds everything of its index in the ledger. -/
def Labels.Exceeds (ledger : List D) (later : D) : Prop :=
  ∀ earlier ∈ ledger, labels.index earlier = labels.index later →
    labels.counter earlier < labels.counter later

/-- A challenge stands between the items that were signed before it and its answers. -/
structure Challenged (ledger accepted : List D) (index : Option I) (nonce : N)
    (before : List D) : Prop where
  older : before ⊆ ledger
  answered : ∀ item ∈ ledger, labels.answers item nonce → labels.Exceeds before item
  unanswered : ∀ item ∈ accepted, ¬ labels.answers item nonce
  since : ∀ item ∈ accepted, item ∈ before ∨ index = some (labels.index item)

/-- No ledger item got in twice, and the guard still knows enough to keep it so. -/
structure Holds (ledger accepted : List D) (guard : ReplayGuard I N) : Prop where
  once : accepted.Nodup
  known : accepted ⊆ ledger
  counted : ∀ item ∈ accepted, guard.index = some (labels.index item) →
    labels.counter item ≤ guard.counter (labels.channel item)
  challenged : ∀ nonce, guard.nonce = some nonce →
    ∃ before, Challenged labels ledger accepted guard.index nonce before

variable {labels} {ledger accepted : List D} {guard : ReplayGuard I N}

theorem nodup_concat {items : List D} {item : D} (once : items.Nodup) (absent : item ∉ items) :
    (items ++ [item]).Nodup :=
  List.concat_eq_append ▸ List.Nodup.concat absent once

theorem concat_subset {items others : List D} {item : D} (inOthers : items ⊆ others)
    (member : item ∈ others) : items ++ [item] ⊆ others :=
  List.append_subset.mpr ⟨inOthers, List.cons_subset.mpr ⟨member, List.nil_subset _⟩⟩

theorem Holds.nothing : Holds labels ledger [] (blank : ReplayGuard I N) where
  once := List.nodup_nil
  known := List.nil_subset _
  counted item accepted := absurd accepted List.not_mem_nil
  challenged nonce outstanding := by cases outstanding

theorem Holds.sign (holds : Holds labels ledger accepted guard) {item : D}
    (exceeds : labels.Exceeds ledger item) : Holds labels (item :: ledger) accepted guard where
  once := holds.once
  known := List.subset_cons_of_subset item holds.known
  counted := holds.counted
  challenged nonce outstanding := by
    obtain ⟨before, challenge⟩ := holds.challenged nonce outstanding
    refine ⟨before, List.subset_cons_of_subset item challenge.older, ?_,
      challenge.unanswered, challenge.since⟩
    intro signed member answers
    rcases List.mem_cons.mp member with rfl | old
    · exact fun earlier inBefore => exceeds earlier (challenge.older inBefore)
    · exact challenge.answered signed old answers

/-- Forgetting the peer: nothing of the past is known, so nothing can be let in by a counter. -/
theorem Holds.forget (holds : Holds labels ledger accepted guard) :
    Holds labels ledger accepted (blank : ReplayGuard I N) where
  once := holds.once
  known := holds.known
  counted item _ sameIndex := by cases sameIndex
  challenged nonce outstanding := by cases outstanding

theorem Holds.lapse (holds : Holds labels ledger accepted guard) :
    Holds labels ledger accepted { guard with nonce := none } where
  once := holds.once
  known := holds.known
  counted := holds.counted
  challenged nonce outstanding := by cases outstanding

theorem Holds.challenge (holds : Holds labels ledger accepted guard) {nonce : N}
    (fresh : ∀ item ∈ ledger, ¬ labels.answers item nonce) :
    Holds labels ledger accepted { guard with nonce := some nonce } where
  once := holds.once
  known := holds.known
  counted := holds.counted
  challenged outstanding same := by
    obtain rfl : nonce = outstanding := Option.some.inj same
    exact ⟨ledger, List.Subset.refl _,
      fun item member answers => absurd answers (fresh item member),
      fun item member => fresh item (holds.known member),
      fun item member => .inl (holds.known member)⟩

theorem Holds.count (holds : Holds labels ledger accepted guard) {item : D}
    (signed : item ∈ ledger) (current : guard.index = some (labels.index item))
    (above : guard.counter (labels.channel item) < labels.counter item)
    (noAnswer : ∀ nonce, guard.nonce = some nonce → ¬ labels.answers item nonce) :
    Holds labels ledger (accepted ++ [item])
      { guard with
        counter := fun channel =>
          if channel = labels.channel item then labels.counter item else guard.counter channel } where
  once := by
    refine nodup_concat holds.once fun again => ?_
    have := holds.counted item again current
    omega
  known := concat_subset holds.known signed
  counted other member sameIndex := by
    rcases List.mem_append.mp member with old | new
    · have bound := holds.counted other old sameIndex
      by_cases sameChannel : labels.channel other = labels.channel item
      · simp only [sameChannel, if_true] at bound ⊢
        omega
      · simpa only [if_neg sameChannel] using bound
    · obtain rfl := List.mem_singleton.mp new
      simp
  challenged nonce outstanding := by
    obtain ⟨before, challenge⟩ := holds.challenged nonce outstanding
    refine ⟨before, challenge.older, challenge.answered, ?_, ?_⟩
    · intro other member
      rcases List.mem_append.mp member with old | new
      · exact challenge.unanswered other old
      · obtain rfl := List.mem_singleton.mp new
        exact noAnswer nonce outstanding
    · intro other member
      rcases List.mem_append.mp member with old | new
      · exact challenge.since other old
      · obtain rfl := List.mem_singleton.mp new
        exact .inr current

/-- Letting in an item that answers the outstanding challenge and does not turn the
guard's own index back. -/
theorem Holds.answer (holds : Holds labels ledger accepted guard) {item : D} {nonce : N}
    (signed : item ∈ ledger) (outstanding : guard.nonce = some nonce)
    (answers : labels.answers item nonce)
    (forward : guard.index = some (labels.index item) →
      ∀ channel, guard.counter channel ≤ labels.counter item) :
    Holds labels ledger (accepted ++ [item])
      ⟨some (labels.index item), fun _ => labels.counter item, none⟩ where
  once := by
    obtain ⟨before, challenge⟩ := holds.challenged nonce outstanding
    exact nodup_concat holds.once fun again => challenge.unanswered item again answers
  known := concat_subset holds.known signed
  counted other member sameIndex := by
    obtain ⟨before, challenge⟩ := holds.challenged nonce outstanding
    have same : labels.index item = labels.index other := Option.some.inj sameIndex
    rcases List.mem_append.mp member with old | new
    -- what got in before the challenge was signed before the answer
    · rcases challenge.since other old with inBefore | current
      · exact Nat.le_of_lt (challenge.answered item signed answers other inBefore same.symm)
      · exact Nat.le_trans (holds.counted other old current)
          (forward (same ▸ current) (labels.channel other))
    · obtain rfl := List.mem_singleton.mp new
      exact Nat.le_refl _
  challenged nonce none := by cases none

end ReplayGuard

end BabelRs.Lib
