import BabelRs.Lib.Counting
import BabelRs.Safety.Stages

/-!
# Admission accounting

The counter a neighbour keeps of its candidates duplicates the candidate table.
Every change either leaves the candidates of each remaining neighbour in place,
recounts them, or moves one candidate and the counter together.
-/

set_option autoImplicit false

namespace BabelRs

open Lib Lib.Effect

namespace Engine

variable {P M : Type}
variable {s t : Engine P M} {actions : List Action} {now : UInt64} {neighbour : NeighborKey}

def candidatesOf (s : Engine P M) (neighbour : NeighborKey) : Nat :=
  s.candidates.countKeys fun entry => decide (entry.2 = neighbour)

/-- Counters agree with the candidate table, candidates belong to neighbours on
interfaces that are up, and the tables keep within their limits. -/
structure Accounted (s : Engine P M) : Prop where
  counted : ∀ neighbour state, s.neighbours.get? neighbour = some state →
    state.candidates = s.candidatesOf neighbour
  known : ∀ entry, s.candidates.containsKey entry = true → s.neighbours.containsKey entry.2 = true
  named : ∀ entry candidate, s.candidates.get? entry = some candidate →
    candidate.key = entry.1 ∧ candidate.interface = entry.2.interface
  attached : ∀ neighbour, s.neighbours.containsKey neighbour = true →
    s.interfaces.containsKey neighbour.interface = true
  neighbours : s.neighbours.len ≤ s.config.limits.maxNeighbors
  candidates : s.candidates.len ≤ s.config.limits.maxCandidates
  share : ∀ neighbour state, s.neighbours.get? neighbour = some state →
    state.candidates ≤ s.config.limits.maxCandidatesPerNeighbor

theorem Accounted.initial (config : EngineConfig P) :
    Accounted (Engine.initial config : Engine P M) where
  counted := by
    intro neighbour state found
    cases found
  known := by
    intro entry stored
    cases stored
  named := by
    intro entry candidate found
    cases found
  attached := by
    intro neighbour stored
    cases stored
  neighbours := Nat.zero_le _
  candidates := Nat.zero_le _
  share := by
    intro neighbour state found
    cases found

/-! ## Fewer candidates -/

/-- What remains of the tables is recounted. -/
theorem Accounted.shrink (accounted : Accounted s) (limits : t.config.limits = s.config.limits)
    (interfaces : ∀ neighbour, t.neighbours.containsKey neighbour = true →
      s.interfaces.containsKey neighbour.interface = true →
        t.interfaces.containsKey neighbour.interface = true)
    (neighbours : ∀ neighbour, t.neighbours.containsKey neighbour = true →
      s.neighbours.containsKey neighbour = true)
    (candidates : ∀ entry candidate, t.candidates.get? entry = some candidate →
      ∃ old, s.candidates.get? entry = some old ∧ candidate.key = old.key ∧
        candidate.interface = old.interface)
    (known : ∀ entry, t.candidates.containsKey entry = true →
      t.neighbours.containsKey entry.2 = true)
    (counted : ∀ neighbour state, t.neighbours.get? neighbour = some state →
      state.candidates = t.candidatesOf neighbour) : Accounted t := by
  have fewer : ∀ entry, t.candidates.containsKey entry = true →
      s.candidates.containsKey entry = true := by
    intro entry stored
    obtain ⟨candidate, found⟩ := AssocMap.containsKey_iff.mp stored
    obtain ⟨old, before, _⟩ := candidates entry candidate found
    exact AssocMap.containsKey_iff.mpr ⟨old, before⟩
  refine ⟨counted, known, ?_, ?_, ?_, ?_, ?_⟩
  · intro entry candidate found
    obtain ⟨old, before, key, interface⟩ := candidates entry candidate found
    rw [key, interface]
    exact accounted.named entry old before
  · intro neighbour stored
    exact interfaces neighbour stored (accounted.attached neighbour (neighbours neighbour stored))
  · rw [limits, AssocMap.len_eq_countKeys]
    refine Nat.le_trans (AssocMap.countKeys_mono fun neighbour _ => neighbours neighbour) ?_
    rw [← AssocMap.len_eq_countKeys]
    exact accounted.neighbours
  · rw [limits, AssocMap.len_eq_countKeys]
    refine Nat.le_trans (AssocMap.countKeys_mono fun entry _ => fewer entry) ?_
    rw [← AssocMap.len_eq_countKeys]
    exact accounted.candidates
  · intro neighbour state found
    have stored : t.neighbours.containsKey neighbour = true :=
      AssocMap.containsKey_iff.mpr ⟨state, found⟩
    obtain ⟨old, before⟩ := AssocMap.containsKey_iff.mp (neighbours neighbour stored)
    have bounded := accounted.share neighbour old before
    rw [accounted.counted neighbour old before] at bounded
    rw [counted neighbour state found, limits]
    exact Nat.le_trans (AssocMap.countKeys_mono fun entry _ => fewer entry) bounded

theorem Accounted.keep (accounted : Accounted s) (limits : t.config.limits = s.config.limits)
    (interfaces : ∀ neighbour, t.neighbours.containsKey neighbour = true →
      s.interfaces.containsKey neighbour.interface = true →
        t.interfaces.containsKey neighbour.interface = true)
    (neighbours : ∀ neighbour state, t.neighbours.get? neighbour = some state →
      ∃ old, s.neighbours.get? neighbour = some old ∧ state.candidates = old.candidates)
    (candidates : ∀ entry candidate, t.candidates.get? entry = some candidate →
      ∃ old, s.candidates.get? entry = some old ∧ candidate.key = old.key ∧
        candidate.interface = old.interface)
    (kept : ∀ entry, s.candidates.containsKey entry = true →
      t.candidates.containsKey entry = t.neighbours.containsKey entry.2) : Accounted t := by
  have before : ∀ entry, t.candidates.containsKey entry = true →
      s.candidates.containsKey entry = true := by
    intro entry stored
    obtain ⟨candidate, found⟩ := AssocMap.containsKey_iff.mp stored
    obtain ⟨old, earlier, _⟩ := candidates entry candidate found
    exact AssocMap.containsKey_iff.mpr ⟨old, earlier⟩
  refine accounted.shrink limits interfaces ?_ candidates ?_ ?_
  · intro neighbour stored
    obtain ⟨state, found⟩ := AssocMap.containsKey_iff.mp stored
    obtain ⟨old, earlier, _⟩ := neighbours neighbour state found
    exact AssocMap.containsKey_iff.mpr ⟨old, earlier⟩
  · intro entry stored
    rw [← kept entry (before entry stored)]
    exact stored
  · intro neighbour state found
    obtain ⟨old, earlier, same⟩ := neighbours neighbour state found
    rw [same, accounted.counted neighbour old earlier]
    refine (AssocMap.countKeys_congr fun entry counted => ?_).symm
    have here : entry.2 = neighbour := of_decide_eq_true counted
    have present : t.neighbours.containsKey entry.2 = true :=
      AssocMap.containsKey_iff.mpr ⟨state, here ▸ found⟩
    cases stored : s.candidates.containsKey entry with
    | true => rw [kept entry stored, present]
    | false =>
      rw [← Bool.not_eq_true] at stored ⊢
      exact fun after => stored (before entry after)

/-- Rewriting neighbours and candidates in place. -/
theorem Accounted.rewrite (accounted : Accounted s)
    {onNeighbour : NeighborKey → Neighbor M → Neighbor M}
    {onCandidate : RouteKey × NeighborKey → Candidate → Candidate}
    (limits : t.config.limits = s.config.limits)
    (interfaces : ∀ name, s.interfaces.containsKey name = true →
      t.interfaces.containsKey name = true)
    (neighbours : ∀ key, t.neighbours.get? key = (s.neighbours.get? key).map (onNeighbour key))
    (candidates : ∀ entry, t.candidates.get? entry =
      (s.candidates.get? entry).map (onCandidate entry))
    (counters : ∀ key state, (onNeighbour key state).candidates = state.candidates)
    (names : ∀ entry candidate, (onCandidate entry candidate).key = candidate.key ∧
      (onCandidate entry candidate).interface = candidate.interface) : Accounted t := by
  refine accounted.keep limits (fun neighbour _ => interfaces neighbour.interface) ?_ ?_ ?_
  · intro neighbour state found
    rw [neighbours] at found
    obtain ⟨old, stored, rfl⟩ := Option.map_eq_some_iff.mp found
    exact ⟨old, stored, counters neighbour old⟩
  · intro entry candidate found
    rw [candidates] at found
    obtain ⟨old, stored, rfl⟩ := Option.map_eq_some_iff.mp found
    exact ⟨old, stored, names entry old⟩
  · intro entry stored
    have known := accounted.known entry stored
    rw [AssocMap.containsKey] at stored known
    rw [AssocMap.containsKey, AssocMap.containsKey, candidates, neighbours, Option.isSome_map,
      Option.isSome_map, stored, known]

/-- The candidates leave with the neighbours. -/
theorem Accounted.forget (accounted : Accounted s) {keep : NeighborKey → Bool}
    (limits : t.config.limits = s.config.limits) (interfaces : ∀ neighbour, keep neighbour = true →
      s.interfaces.containsKey neighbour.interface = true →
        t.interfaces.containsKey neighbour.interface = true)
    (neighbours : ∀ neighbour, t.neighbours.get? neighbour =
      if keep neighbour then s.neighbours.get? neighbour else none)
    (candidates : ∀ entry, t.candidates.get? entry =
      if keep entry.2 then s.candidates.get? entry else none) : Accounted t := by
  refine accounted.keep limits ?_ ?_ ?_ ?_
  · intro neighbour stored
    rw [AssocMap.containsKey, neighbours] at stored
    cases kept : keep neighbour with
    | true => exact interfaces neighbour kept
    | false => simp [kept] at stored
  · intro neighbour state found
    rw [neighbours] at found
    split at found
    · exact ⟨state, found, rfl⟩
    · cases found
  · intro entry candidate found
    rw [candidates] at found
    split at found
    · exact ⟨candidate, found, rfl, rfl⟩
    · cases found
  · intro entry stored
    have known := accounted.known entry stored
    rw [AssocMap.containsKey] at stored known
    rw [AssocMap.containsKey, AssocMap.containsKey, candidates, neighbours]
    cases keep entry.2 with
    | true => simp [stored, known]
    | false => rfl

theorem containsKey_links (s : Engine P M) (interface : InterfaceName) :
    s.links.containsKey interface = s.interfaces.containsKey interface := by
  rw [OrdMap.containsKey, get?_links, Option.isSome_map]
  rfl

theorem containsKey_adjacency (s : Engine P M) (neighbour : NeighborKey) :
    (s.adjacency neighbour).isSome = s.neighbours.containsKey neighbour := by
  rw [adjacency, Option.isSome_map]
  rfl

theorem candidates_adjacency {state : Neighbor M}
    (same : t.adjacency neighbour = s.adjacency neighbour)
    (found : t.neighbours.get? neighbour = some state) :
    ∃ old, s.neighbours.get? neighbour = some old ∧ state.candidates = old.candidates := by
  rw [adjacency, found, Option.map_some] at same
  obtain ⟨old, stored, equal⟩ := Option.map_eq_some_iff.mp same.symm
  exact ⟨old, stored, (congrArg Neighbor.candidates equal).symm⟩

theorem Accounted.of_adjacencies (accounted : Accounted s) (config : t.config = s.config)
    (links : t.links = s.links)
    (adjacencies : ∀ neighbour, t.adjacency neighbour = s.adjacency neighbour)
    (candidates : t.candidates = s.candidates) : Accounted t := by
  refine accounted.keep (by rw [config]) ?_ (fun neighbour _ => candidates_adjacency
    (adjacencies neighbour)) ?_ ?_
  · intro neighbour _ up
    rwa [← containsKey_links, links, containsKey_links]
  · intro entry candidate found
    exact ⟨candidate, candidates ▸ found, rfl, rfl⟩
  · intro entry stored
    rw [candidates, stored, ← containsKey_adjacency, adjacencies, containsKey_adjacency,
      accounted.known entry stored]

theorem Quiet.accounted (quiet : Quiet s t) (accounted : Accounted s) :
    Accounted t :=
  accounted.of_adjacencies quiet.config quiet.links quiet.adjacencies quiet.candidates

theorem Accounted.of_tables (accounted : Accounted s) (limits : t.config.limits = s.config.limits)
    (interfaces : ∀ name, s.interfaces.containsKey name = true →
      t.interfaces.containsKey name = true) (neighbours : t.neighbours = s.neighbours)
    (candidates : t.candidates = s.candidates) :
    Accounted t := by
  refine accounted.keep limits (fun neighbour _ => interfaces neighbour.interface) ?_ ?_ ?_
  · intro neighbour state found
    exact ⟨state, neighbours ▸ found, rfl⟩
  · intro entry candidate found
    exact ⟨candidate, candidates ▸ found, rfl, rfl⟩
  · intro entry stored
    rw [candidates, neighbours, stored, accounted.known entry stored]

/-! ## Silent moves -/

theorem detachNeighbours_accounted (interface : InterfaceName) (accounted : Accounted s) :
    Accounted (s.detachNeighbours interface) := by
  have neighbours : ∀ neighbour, (s.detachNeighbours interface).neighbours.get? neighbour =
      if decide (neighbour.interface ≠ interface) then s.neighbours.get? neighbour else none := by
    intro neighbour
    simp only [detachNeighbours, AssocMap.get?_retain]
    cases s.neighbours.get? neighbour <;> simp [Option.filter]
  refine accounted.forget rfl (fun _ _ up => up) neighbours fun entry => ?_
  simp only [detachNeighbours, AssocMap.get?_retain]
  cases found : s.candidates.get? entry with
  | none => simp
  | some candidate =>
    rw [← (accounted.named entry candidate found).2]
    simp [Option.filter]

theorem dropSilentNeighbours_accounted (accounted : Accounted s) :
    Accounted s.dropSilentNeighbours.1 := by
  have neighbours : ∀ neighbour, s.dropSilentNeighbours.1.neighbours.get? neighbour =
      if !(s.neighbours.get? neighbour).any Neighbor.silent then s.neighbours.get? neighbour
      else none := by
    intro neighbour
    simp only [dropSilentNeighbours, AssocMap.get?_retain]
    cases s.neighbours.get? neighbour <;> simp [Option.filter]
  refine accounted.forget rfl (fun _ _ up => up) neighbours fun entry => ?_
  simp only [dropSilentNeighbours, AssocMap.get?_retain]
  cases s.candidates.get? entry <;> simp [Option.filter]

/-- Whether `expire_candidates` drops a candidate: it expired after its retraction. -/
def dropped (now : UInt64) (candidate : Candidate) : Bool :=
  expiredCandidate now candidate && candidate.metric == INFINITY

theorem expireCandidates_accounted (now : UInt64) (accounted : Accounted s) :
    Accounted (s.expireCandidates now).1 := by
  have keys : ∀ entry, (s.expireCandidates now).1.candidates.containsKey entry =
      (s.candidates.retain fun _ candidate => !dropped now candidate).containsKey entry := by
    intro entry
    exact AssocMap.containsKey_mapValues _ _ entry
  have present : ∀ neighbour, (s.expireCandidates now).1.neighbours.containsKey neighbour =
      s.neighbours.containsKey neighbour := fun neighbour =>
    AssocMap.containsKey_mapValues _ _ neighbour
  have faded : ∀ entry candidate, (s.expireCandidates now).1.candidates.get? entry =
      some candidate → ∃ old, s.candidates.get? entry = some old ∧ candidate.key = old.key ∧
        candidate.interface = old.interface := by
    intro entry candidate found
    obtain ⟨old, stored, faded⟩ := expireCandidates_fades now s entry candidate found
    exact ⟨old, stored, faded.key, faded.interface⟩
  refine accounted.shrink rfl (fun _ _ up => up) (fun neighbour stored => present neighbour ▸ stored)
    faded ?_ ?_
  · intro entry stored
    obtain ⟨candidate, found⟩ := AssocMap.containsKey_iff.mp stored
    obtain ⟨old, before, _⟩ := faded entry candidate found
    rw [present]
    exact accounted.known entry (AssocMap.containsKey_iff.mpr ⟨old, before⟩)
  · intro neighbour state found
    simp only [expireCandidates, AssocMap.get?_mapValues, Option.map_eq_some_iff] at found
    obtain ⟨old, stored, rfl⟩ := found
    have counted : (s.expireCandidates now).1.candidatesOf neighbour =
        (s.candidates.retain fun _ candidate => !dropped now candidate).countKeys
          fun entry => decide (entry.2 = neighbour) :=
      AssocMap.countKeys_congr fun entry _ => keys entry
    have total := AssocMap.countKeys_retain_add s.candidates
      (fun _ candidate => !dropped now candidate) fun entry => decide (entry.2 = neighbour)
    simp only [Bool.not_not] at total
    rw [counted, accounted.counted neighbour old stored, candidatesOf, ← total]
    exact Nat.add_sub_cancel _ _

/-! ## Reconfigurations and origins -/

theorem containsKey_modify_interface (s : Engine P M) (interface name : InterfaceName)
    (change : InterfaceState P → InterfaceState P) :
    (s.interfaces.modify interface change).containsKey name = s.interfaces.containsKey name := by
  rw [OrdMap.containsKey, OrdMap.get?_modify, Option.isSome_map]
  rfl

theorem installPolicy_accounted (interface : InterfaceName) (policy : InterfacePolicy P)
    (now : UInt64) (accounted : Accounted s) :
    Accounted (s.installPolicy interface policy now) :=
  accounted.of_tables rfl
    (fun name up => (containsKey_modify_interface s interface name _).trans up) rfl rfl

theorem removeInterface_accounted (interface : InterfaceName) (accounted : Accounted s) :
    Accounted (s.removeInterface interface) := by
  have detached := detachNeighbours_accounted interface accounted
  refine detached.keep rfl ?_ (fun _ state found => ⟨state, found, rfl⟩)
    (fun _ candidate found => ⟨candidate, found, rfl, rfl⟩) fun entry stored =>
      stored.trans (detached.known entry stored).symm
  intro neighbour stored up
  -- The interface of a neighbour that remains is another one.
  have elsewhere : neighbour.interface ≠ interface := by
    rintro rfl
    simp only [removeInterface, detachNeighbours, AssocMap.containsKey, AssocMap.get?_retain]
      at stored
    cases s.neighbours.get? neighbour <;> simp at stored
  simp only [removeInterface, OrdMap.containsKey, OrdMap.get?_remove, if_neg elsewhere]
  exact up

theorem applyRoutePolicy_accounted (policy : RoutePolicy) (accounted : Accounted s) :
    Accounted (s.applyRoutePolicy policy) := by
  have present : ∀ neighbour, (s.applyRoutePolicy policy).neighbours.containsKey neighbour =
      s.neighbours.containsKey neighbour := fun neighbour =>
    AssocMap.containsKey_mapValues _ _ neighbour
  have stays : ∀ entry candidate, (s.applyRoutePolicy policy).candidates.get? entry =
      some candidate → s.candidates.get? entry = some candidate := by
    intro entry candidate found
    simp only [applyRoutePolicy, AssocMap.get?_retain, Option.filter_eq_some_iff] at found
    exact found.1
  refine accounted.shrink rfl (fun _ _ up => up) (fun neighbour stored => present neighbour ▸ stored)
    (fun entry candidate found => ⟨candidate, stays entry candidate found, rfl, rfl⟩) ?_ ?_
  · intro entry stored
    obtain ⟨candidate, found⟩ := AssocMap.containsKey_iff.mp stored
    rw [present]
    exact accounted.known entry (AssocMap.containsKey_iff.mpr ⟨_, stays entry candidate found⟩)
  · intro neighbour state found
    simp only [applyRoutePolicy, AssocMap.get?_mapValues, Option.map_eq_some_iff] at found
    obtain ⟨old, _, rfl⟩ := found
    rfl

theorem Reconfiguration.accounted (change : Reconfiguration now s t) (accounted : Accounted s) :
    Accounted t := by
  cases change with
  | unchanged => exact accounted
  | attached interface localAddresses policy =>
    unfold attachInterface
    split
    · exact accounted
    · refine accounted.of_tables rfl (fun name up => ?_) rfl rfl
      rw [OrdMap.containsKey, OrdMap.get?_insert]
      split
      · rfl
      · exact up
  | installed _ _ => exact installPolicy_accounted _ _ now accounted
  | rehoused interface policy =>
    exact detachNeighbours_accounted interface
      (installPolicy_accounted interface policy now accounted)
  | readdressed interface localAddresses =>
    exact accounted.of_tables rfl
      (fun name up => (containsKey_modify_interface s interface name _).trans up) rfl rfl
  | removed interface => exact removeInterface_accounted interface accounted
  | replaced policy => exact applyRoutePolicy_accounted policy accounted

theorem Edit.accounted {before : Engine P M} {event : Event P}
    (edit : Edit before event s actions t) (accounted : Accounted s) : Accounted t := by
  cases edit with
  | scheduled _ => exact accounted.of_tables rfl (fun _ up => up) rfl rfl
  | lifted _ => exact accounted.of_tables rfl (fun _ up => up) rfl rfl
  | bumped => exact accounted.of_tables rfl (fun _ up => up) rfl rfl
  | reoriginated _ _ _ => exact accounted.of_tables rfl (fun _ up => up) rfl rfl

/-! ## One neighbour or one candidate -/

/-- A greeted neighbour is new, within the limit, or keeps its counter. -/
theorem Accounted.greet (accounted : Accounted s) {state : Neighbor M}
    (up : s.interfaces.containsKey neighbour.interface = true)
    (room : s.neighbours.containsKey neighbour = true ∨
      s.neighbours.len < s.config.limits.maxNeighbors) (counter : state.candidates =
      ((s.neighbours.get? neighbour).map Neighbor.candidates).getD 0) :
    Accounted { s with neighbours := s.neighbours.insert neighbour state } := by
  -- Without the neighbour there is no candidate of it.
  have counted : state.candidates = s.candidatesOf neighbour ∧
      state.candidates ≤ s.config.limits.maxCandidatesPerNeighbor := by
    cases found : s.neighbours.get? neighbour with
    | some old =>
      rw [counter, found]
      exact ⟨accounted.counted neighbour old found, accounted.share neighbour old found⟩
    | none =>
      have empty : s.candidatesOf neighbour = 0 := by
        refine AssocMap.countKeys_eq_zero fun entry here => ?_
        rw [← Bool.not_eq_true]
        intro stored
        have known := accounted.known entry stored
        rw [of_decide_eq_true here, AssocMap.containsKey, found] at known
        cases known
      rw [counter, found, empty]
      exact ⟨rfl, Nat.zero_le _⟩
  refine ⟨?_, ?_, accounted.named, ?_, ?_, accounted.candidates, ?_⟩
  · intro other known found
    rw [AssocMap.get?_insert] at found
    split at found
    next here =>
      cases found
      exact here ▸ counted.1
    next => exact accounted.counted other known found
  · intro entry stored
    rw [AssocMap.containsKey_insert, accounted.known entry stored, Bool.or_true]
  · intro other stored
    rw [AssocMap.containsKey_insert, Bool.or_eq_true, decide_eq_true_eq] at stored
    rcases stored with rfl | known
    · exact up
    · exact accounted.attached other known
  · rw [AssocMap.len_eq_countKeys]
    cases stored : s.neighbours.containsKey neighbour with
    | true =>
      rw [AssocMap.countKeys_insert_stored stored, ← AssocMap.len_eq_countKeys]
      exact accounted.neighbours
    | false =>
      rw [AssocMap.countKeys_insert_fresh stored, ← AssocMap.len_eq_countKeys]
      exact room.resolve_left (by simp [stored])
  · intro other known found
    rw [AssocMap.get?_insert] at found
    split at found
    next => exact Option.some.inj found ▸ counted.2
    next => exact accounted.share other known found

theorem rejectByPolicy_accounted (entry : RouteKey × NeighborKey) (accounted : Accounted s) :
    Accounted (s.rejectByPolicy entry).engine := by
  simp only [rejectByPolicy]
  split
  next stored =>
    refine accounted.shrink rfl (fun _ _ up => up) (fun other known => ?_) (fun other candidate found => ?_)
      (fun other found => ?_) (fun other state found => ?_)
    · rwa [AssocMap.containsKey_modify] at known
    · rw [AssocMap.get?_remove] at found
      split at found
      · cases found
      · exact ⟨candidate, found, rfl, rfl⟩
    · rw [AssocMap.containsKey_modify]
      rw [AssocMap.containsKey, AssocMap.get?_remove] at found
      split at found
      · cases found
      · exact accounted.known other found
    · -- The counter of the candidate's neighbour falls with the count.
      rw [AssocMap.get?_modify] at found
      obtain ⟨old, before, rfl⟩ := Option.map_eq_some_iff.mp found
      have total := AssocMap.countKeys_remove_stored stored fun key => decide (key.2 = other)
      have counted : old.candidates = _ := accounted.counted other old before
      rw [candidatesOf, ← total] at counted
      by_cases here : other = entry.2
      · rw [if_pos here]
        rw [if_pos (by simp [here])] at counted
        exact Nat.sub_eq_of_eq_add counted
      · rw [if_neg here]
        rw [if_neg (by simpa using Ne.symm here)] at counted
        exact counted
  next => exact accounted

section Store
variable {s : Engine P M} {neighbour : NeighborKey} {state : Neighbor M} {finite : FiniteUpdate}
  {metric : UInt16} {now : UInt64}

theorem containsKey_storeCandidate (other : NeighborKey) :
    (s.storeCandidate neighbour finite metric now).neighbours.containsKey other =
      s.neighbours.containsKey other := by
  simp only [storeCandidate]
  split
  · rfl
  · exact AssocMap.containsKey_modify _ _ _ _

/-- Storing a candidate of a known neighbour, the counts aside. -/
theorem Accounted.store_of_counts (accounted : Accounted s)
    (known : s.neighbours.get? neighbour = some state)
    (counted : ∀ other old,
      (s.storeCandidate neighbour finite metric now).neighbours.get? other = some old →
        old.candidates = (s.storeCandidate neighbour finite metric now).candidatesOf other ∧
          old.candidates ≤ s.config.limits.maxCandidatesPerNeighbor)
    (size : (s.storeCandidate neighbour finite metric now).candidates.len ≤
      s.config.limits.maxCandidates) :
    Accounted (s.storeCandidate neighbour finite metric now) := by
  refine ⟨fun other old found => (counted other old found).1, ?_, ?_, ?_, ?_, size,
    fun other old found => (counted other old found).2⟩
  · intro entry stored
    rw [containsKey_storeCandidate]
    simp only [storeCandidate, AssocMap.containsKey_insert, Bool.or_eq_true,
      decide_eq_true_eq] at stored
    rcases stored with rfl | stored
    · exact AssocMap.containsKey_iff.mpr ⟨state, known⟩
    · exact accounted.known entry stored
  · intro entry candidate found
    simp only [storeCandidate, AssocMap.get?_insert] at found
    split at found
    next here =>
      cases found
      rw [← here]
      exact ⟨rfl, rfl⟩
    next => exact accounted.named entry candidate found
  · intro other found
    rw [containsKey_storeCandidate] at found
    exact accounted.attached other found
  · have same : (s.storeCandidate neighbour finite metric now).neighbours.len = s.neighbours.len := by
      rw [AssocMap.len_eq_countKeys, AssocMap.len_eq_countKeys]
      exact AssocMap.countKeys_congr fun other _ => containsKey_storeCandidate other
    rw [same]
    exact accounted.neighbours

/-- A stored candidate is an old one rewritten, or a new one counted. -/
theorem Accounted.store (accounted : Accounted s)
    (known : s.neighbours.get? neighbour = some state)
    (room : s.hasRoom neighbour state finite.key) :
    Accounted (s.storeCandidate neighbour finite metric now) := by
  cases stored : s.candidates.containsKey (finite.key, neighbour) with
  | true =>
    refine accounted.store_of_counts known (fun other old found => ?_) ?_
    · simp only [storeCandidate, stored, if_true] at found
      refine ⟨?_, accounted.share other old found⟩
      rw [accounted.counted other old found]
      exact (AssocMap.countKeys_insert_stored stored _ _).symm
    · show (s.candidates.insert _ _).len ≤ _
      rw [AssocMap.len_eq_countKeys, AssocMap.countKeys_insert_stored stored,
        ← AssocMap.len_eq_countKeys]
      exact accounted.candidates
  | false =>
    obtain ⟨spare, few⟩ := room.resolve_left (by simp [stored])
    refine accounted.store_of_counts known (fun other old found => ?_) ?_
    · simp only [storeCandidate, stored, Bool.false_eq_true, if_false, AssocMap.get?_modify,
        Option.map_eq_some_iff] at found
      obtain ⟨before, located, rfl⟩ := found
      have count : (s.storeCandidate neighbour finite metric now).candidatesOf other =
          s.candidatesOf other + if decide (neighbour = other) then 1 else 0 :=
        AssocMap.countKeys_insert_fresh stored _ _
      rw [count, ← accounted.counted other before located]
      by_cases here : other = neighbour
      · subst here
        rw [known] at located
        cases located
        simpa using Nat.succ_le_of_lt spare
      · simpa [here, Ne.symm here] using accounted.share other before located
    · show (s.candidates.insert _ _).len ≤ _
      rw [AssocMap.len_eq_countKeys, AssocMap.countKeys_insert_fresh stored,
        ← AssocMap.len_eq_countKeys]
      exact few

end Store

/-! ## Counters never underflow -/

/-- What the counting statements of the source expect of a state: the neighbour of
a candidate is known with a positive counter, a counter covers whatever expiry drops,
and settling requests in the middle of an Update forgets no neighbour. -/
structure Covered (s : Engine P M) : Prop where
  known : ∀ entry, s.candidates.containsKey entry = true →
    ∃ state, s.neighbours.get? entry.2 = some state ∧ 0 < state.candidates
  covers : ∀ now neighbour state, s.neighbours.get? neighbour = some state →
    (s.candidates.entries.countP fun entry =>
      decide (entry.1.2 = neighbour) && dropped now entry.2) ≤ state.candidates
  settled : ∀ order neighbour finite metric now, s.neighbours.containsKey neighbour = true →
    (settleRequests order neighbour finite metric now s).1.neighbours.containsKey neighbour = true

theorem Accounted.covered (accounted : Accounted s) : Covered s where
  known := by
    intro entry stored
    obtain ⟨state, found⟩ := AssocMap.containsKey_iff.mp (accounted.known entry stored)
    refine ⟨state, found, ?_⟩
    have total := AssocMap.countKeys_remove_stored stored fun key => decide (key.2 = entry.2)
    rw [accounted.counted entry.2 state found, candidatesOf, ← total, decide_eq_true rfl]
    exact Nat.succ_pos _
  covers := by
    intro now neighbour state found
    rw [accounted.counted neighbour state found]
    refine List.countP_mono_left fun entry _ drops => ?_
    exact (Bool.and_eq_true_iff.mp drops).1
  settled := by
    intro order neighbour finite metric now known
    have requests : Announces nothingLost now s _ _ ∧ _ ∨ _ :=
      settleRequests_cases order neighbour finite metric s
    have same : (settleRequests order neighbour finite metric now s).1.adjacency neighbour =
        s.adjacency neighbour := by
      rcases requests with ⟨announces, _⟩ | ⟨_, answers⟩
      · exact announces.quiet.adjacencies neighbour
      · exact answers.quiet.adjacencies neighbour
    rw [← containsKey_adjacency, same, containsKey_adjacency]
    exact known

section Metric
variable [NeighborMetric M] [MetricProfile P M]

/-! ## Every move -/

theorem Silent.accounted (silent : Silent now s t) (accounted : Accounted s) : Accounted t := by
  have same : ∀ {V : Type} (value : Option V), value = value.map fun kept => kept :=
    fun _ => Option.map_id'.symm
  cases silent with
  | aged =>
    exact accounted.rewrite rfl (fun _ up => up) (fun _ => AssocMap.get?_mapValues _ _ _)
      (fun _ => same _) (fun _ _ => rfl) fun _ _ => ⟨rfl, rfl⟩
  | silenced => exact dropSilentNeighbours_accounted accounted
  | unheard =>
    refine accounted.rewrite rfl (fun _ up => up) (fun _ => AssocMap.get?_mapValues _ _ _)
      (fun _ => same _) (fun _ state => ?_) fun _ _ => ⟨rfl, rfl⟩
    split <;> rfl
  | expired => exact expireCandidates_accounted now accounted
  | refreshed order =>
    refine accounted.rewrite rfl (fun _ up => up) (fun _ => same _)
      (fun _ => AssocMap.get?_mapValues _ _ _) (fun _ _ => rfl) fun _ candidate => ?_
    split <;> exact ⟨rfl, rfl⟩
  | recomputed only =>
    exact accounted.rewrite rfl (fun _ up => up) (fun _ => same _)
      (fun _ => AssocMap.get?_mapValues _ _ _) (fun _ _ => rfl) fun _ _ => ⟨rfl, rfl⟩
  | reset interface policy =>
    refine accounted.rewrite rfl (fun _ up => up) (fun _ => AssocMap.get?_mapValues _ _ _)
      (fun _ => same _) (fun _ state => ?_) fun _ _ => ⟨rfl, rfl⟩
    split <;> rfl

/-- A Hello leaves the counter of its sender alone; a new sender has none yet. -/
theorem candidates_onHelloTlv (profile : P) (key : NeighborKey) (helloIntervalCs : UInt16)
    (receiveTimestamp : UInt32) (now : UInt64) (unicast : Bool) (seqno intervalCs : UInt16)
    (subTlvs : List SubTlv) (existing : Option (Neighbor M)) :
    (Neighbor.onHelloTlv profile key helloIntervalCs receiveTimestamp now unicast seqno intervalCs
      subTlvs existing).1.candidates = (existing.map Neighbor.candidates).getD 0 := by
  have armed : ∀ neighbour : Neighbor M,
      (neighbour.armHelloTimer unicast intervalCs now).candidates = neighbour.candidates := by
    intro neighbour
    unfold Neighbor.armHelloTimer
    split_ifs <;> rfl
  have recorded : ∀ neighbour : Neighbor M,
      (neighbour.recordHello unicast seqno).1.candidates = neighbour.candidates := by
    intro neighbour
    unfold Neighbor.recordHello
    split_ifs <;> rfl
  have restarted : ∀ neighbour : Neighbor M,
      (neighbour.restart profile key unicast seqno now).candidates = neighbour.candidates :=
    fun _ => rfl
  have fresh : (existing.getD (Neighbor.fresh profile key helloIntervalCs now)).candidates =
      (existing.map Neighbor.candidates).getD 0 := by
    cases existing <;> rfl
  simp only [Neighbor.onHelloTlv]
  cases timestampHello subTlvs <;>
    simp only [armed] <;> split_ifs <;> simp only [restarted, recorded, fresh]

theorem Observation.accounted {tlvs : List Tlv}
    (observation : Observation neighbour now tlvs s actions t) (accounted : Accounted s) :
    Accounted t := by
  have same : ∀ candidate : Option Candidate, candidate = candidate.map fun kept => kept :=
    fun _ => Option.map_id'.symm
  cases observation with
  | refused _ => exact accounted.of_tables rfl (fun _ up => up) rfl rfl
  | greeted up room _ receiveTimestamp =>
    exact accounted.greet (OrdMap.containsKey_iff.mpr ⟨_, up⟩) room
      (candidates_onHelloTlv _ _ _ _ _ _ _ _ _ _)
  | sampled _ =>
    refine accounted.rewrite rfl (fun _ up => up) (fun _ => AssocMap.get?_modify _ _ _ _)
      (fun _ => same _) (fun _ state => ?_) fun _ _ => ⟨rfl, rfl⟩
    split <;> rfl
  | confirmed _ =>
    refine accounted.rewrite rfl (fun _ up => up) (fun _ => AssocMap.get?_modify _ _ _ _)
      (fun _ => same _) (fun _ state => ?_) fun _ _ => ⟨rfl, rfl⟩
    split <;> rfl
  | recomputed => exact (show Silent now s _ from .recomputed (some neighbour)).accounted accounted

/-! ## Route TLVs -/

omit [MetricProfile P M] in
theorem TlvEffect.accounted {tlv : Tlv} {changed : Bool}
    (effect : TlvEffect neighbour now tlv s actions t changed) (accounted : Accounted s) :
    Accounted t := by
  have same : ∀ state : Option (Neighbor M), state = state.map fun kept => kept :=
    fun _ => Option.map_id'.symm
  cases effect with
  | announced announces _ => exact announces.quiet.accounted accounted
  | bumped key own announces _ =>
    exact announces.quiet.accounted (accounted.of_tables rfl (fun _ up => up) rfl rfl)
  | updated update isUpdate effect =>
    cases effect with
    | announced announces _ => exact announces.quiet.accounted accounted
    | retractedAll _ _ =>
      refine accounted.rewrite rfl (fun _ up => up) (fun _ => same _)
        (fun _ => AssocMap.get?_mapValues _ _ _) (fun _ _ => rfl) fun _ candidate => ?_
      split <;> exact ⟨rfl, rfl⟩
    | retracted _ _ _ =>
      refine accounted.rewrite rfl (fun _ up => up) (fun _ => same _)
        (fun _ => AssocMap.get?_modify _ _ _ _) (fun _ _ => rfl) fun _ candidate => ?_
      split <;> exact ⟨rfl, rfl⟩
    | rejected finite _ => exact rejectByPolicy_accounted _ accounted
    | limited _ =>
      refine accounted.rewrite rfl (fun _ up => up) (fun _ => AssocMap.get?_modify _ _ _ _)
        (fun _ => Option.map_id'.symm) (fun _ state => ?_) fun _ _ => ⟨rfl, rfl⟩
      split <;> rfl
    | @stored finite state settled _ _ _ known room _ requests =>
      have quiet := requests_quiet requests
      obtain ⟨later, found, counter⟩ := candidates_adjacency
        (quiet.adjacencies neighbour).symm known
      refine (quiet.accounted accounted).store found ?_
      rwa [hasRoom, quiet.candidates, quiet.config, ← counter]

omit [MetricProfile P M] in
theorem receiveTlv_accounted (order : HashOrder) (neighbour : NeighborKey) (tlv : Tlv)
    (state : ReceiveState P M) (accounted : Accounted state.engine) :
    Accounted (receiveTlv order neighbour now tlv state).1.engine := by
  obtain ⟨_, _, effect⟩ := receiveTlv_effect order neighbour now tlv state
  exact effect.accounted accounted

/-! ## Every event -/

theorem moves_accounted (event : Event P) :
    Moves event fun (s : Engine P M) _ t => Accounted s → Accounted t where
  prelude := by
    intro s t actions move accounted
    cases move with
    | sensed silent => exact silent.accounted accounted
    | collected => exact accounted.of_tables rfl (fun _ up => up) rfl rfl
    | invalidated => exact accounted
  reselects := fun move accounted => accounted.of_adjacencies move.tables.config move.tables.links
    move.tables.adjacencies move.tables.candidates
  output := by
    intro s t actions move accounted
    cases move.coda with
    | announced announces => exact announces.quiet.accounted accounted
    | reported => exact accounted.of_tables rfl (fun _ up => up) rfl rfl
    | held _ _ _ => exact accounted.of_tables rfl (fun _ up => up) rfl rfl
    | lifted _ _ => exact accounted.of_tables rfl (fun _ up => up) rfl rfl
  observation := fun _ => Observation.accounted
  tlv := fun _ _ order state => receiveTlv_accounted order _ _ state

theorem handleValidated_accounted (order : HashOrder) (event : Event P) (accounted : Accounted s) :
    Accounted (handleValidated order event s).1 := by
  obtain ⟨start, change, kept⟩ := (handleValidated_dispatched order event s).fold
    (keeps_chains Accounted) (moves_accounted event) fun _ _ _ _ => Edit.accounted
  exact kept (change.accounted accounted)

theorem RunOf.accounted {allowed : Engine P M → Event P → Bool}
    {history : List (Event P × List Action)} {engine : Engine P M}
    (run : RunOf allowed history engine) : Accounted engine := by
  refine run.invariant (fun _ engine => Accounted engine) ?_ ?_
  · intro s starts
    obtain ⟨config, _, rfl⟩ := starts.eq_initial
    exact Accounted.initial config
  · rintro history s event actions t accounted ⟨_, order, handled⟩
    obtain ⟨_, _, rfl⟩ := tryHandle_ok handled
    exact (handleValidated_accounted order event accounted).of_tables rfl (fun _ up => up) rfl rfl

/-! ## The states that count -/

/-- `receive` ahead of its route TLVs. -/
def heardPacket (state : InterfaceState P) (key : NeighborKey) (packet : Packet) (now : UInt64)
    (receiveTimestamp : UInt32) (s : Engine P M) : ReceiveState P M :=
  let observed := s.observe state key packet now receiveTimestamp
  ⟨(when (fun _ => observed.2.2) (ihuAction key now none) observed.1).1, observed.2.1,
    .empty⟩

theorem heardPacket_accounted {state : InterfaceState P} {key : NeighborKey} {packet : Packet}
    {receiveTimestamp : UInt32} (up : s.interfaces.get? key.interface = some state)
    (room : s.neighbours.containsKey key = true ∨
      s.neighbours.len < s.config.limits.maxNeighbors ∨ packet.hasHello = false)
    (accounted : Accounted s) :
    Accounted (s.heardPacket state key packet now receiveTimestamp).engine := by
  have observes : Steps (Observation key now packet.tlvs) s [] _ :=
    observe_observations receiveTimestamp up room
  have heard := observes.fold (keeps_chains Accounted) Observation.accounted accounted
  have greets : Steps (Utterance false now) _ _ _ := dueIhu_utters key
    (s.observe state key packet now receiveTimestamp).2.2
    (s.observe state key packet now receiveTimestamp).1
  exact (utterances_announces greets : Announces nothingLost now _ _ _).quiet.accounted heard

/-- The states in which a tick begins: right away, on an interface that comes up,
or at the end of a changed interface policy. -/
inductive TickStart (order : HashOrder) (now : UInt64) (s : Engine P M) : Engine P M → Prop
  | tick : TickStart order now s s
  | up (interface : InterfaceName) (localAddresses : List IpAddr) (policy : InterfacePolicy P) :
      TickStart order now s (s.attachInterface interface localAddresses policy now)
  | policy (interface : InterfaceName) (policy : InterfacePolicy P)
      (transportChanged resetMetric : Bool) :
      TickStart order now s
        (policyChangedBeforeTick order interface policy transportChanged resetMetric now s).1

theorem Stage.accounted {order : HashOrder} (stage : Stage false order now s actions t)
    (accounted : Accounted s) : Accounted t := by
  have reselected : ∀ {u v : Engine P M} {outputs : List Action}, Reselects now u outputs v →
      Accounted u → Accounted v := (moves_accounted (.tick now)).reselects
  cases stage with
  | adjusted change =>
    cases change with
    | attached interface localAddresses policy =>
      exact Reconfiguration.accounted (.attached interface localAddresses policy) accounted
    | installed interface policy => exact installPolicy_accounted interface policy now accounted
    | readdressed interface localAddresses =>
      have readdressed : Reconfiguration now s _ := .readdressed interface localAddresses
      exact readdressed.accounted accounted
  | invalidated => exact accounted
  | purged change =>
    refine reselected (.taken order) ?_
    cases change with
    | detached interface => exact detachNeighbours_accounted interface accounted
    | removed interface =>
      have removed : Reconfiguration now s _ := .removed interface
      exact removed.accounted accounted
    | replaced policy => exact applyRoutePolicy_accounted policy accounted
  | reset interface policy =>
    have recomputed := (show Silent now _ _ from .recomputed none).accounted
      ((show Silent now s _ from .reset interface policy).accounted accounted)
    exact reselected (when_reselects order _ _) recomputed
  | said utterance =>
    exact (utterance.announces : Announces nothingLost now _ _ _).quiet.accounted accounted
  | ticked ticking => cases ticking

theorem TickStart.accounted {order : HashOrder} {start : Engine P M}
    (starts : TickStart order now s start) (accounted : Accounted s) : Accounted start := by
  cases starts with
  | tick => exact accounted
  | up interface localAddresses policy =>
    exact Reconfiguration.accounted (.attached interface localAddresses policy) accounted
  | policy interface policy transportChanged resetMetric =>
    exact (policyChangedBeforeTick_stages order interface policy transportChanged resetMetric s).fold
      (keeps_chains Accounted) Stage.accounted accounted

/-- After every event the accounts hold, and so they do in every state in which
the source lowers a counter or expects a neighbour: ahead of each route TLV of a
packet, and ahead of the candidate expiry of each tick. -/
theorem admission_accounts_hold {history : List (Event P × List Action)} {s : Engine P M}
    (run : RunOf anyEvent history s) :
    Accounted s ∧
      (∀ entry candidate, s.candidates.get? entry = some candidate →
        s.interfaces.containsKey candidate.interface = true) ∧
      (∀ order key packet now receiveTimestamp state earlier later,
        s.interfaces.get? key.interface = some state →
        (s.neighbours.containsKey key = true ∨
          s.neighbours.len < s.config.limits.maxNeighbors ∨ packet.hasHello = false) →
        packet.tlvs = earlier ++ later →
        Covered (forEach earlier (receiveTlv order key now)
          (s.heardPacket state key packet now receiveTimestamp)).1.engine) ∧
      ∀ order now start, TickStart order now s start →
        Covered ((start.ageNeighbours now).1.dropSilentNeighbours.1.expireIhus now).1 := by
  have accounted := run.accounted
  refine ⟨accounted, ?_, ?_, ?_⟩
  · intro entry candidate found
    rw [(accounted.named entry candidate found).2]
    exact accounted.attached entry.2
      (accounted.known entry (AssocMap.containsKey_iff.mpr ⟨candidate, found⟩))
  · intro order key packet now receiveTimestamp state earlier later up room _
    have heard : Accounted (s.heardPacket state key packet now receiveTimestamp).engine :=
      heardPacket_accounted up room accounted
    exact ((receiveTlvs_processes order key earlier _).fold (keeps_chains Accounted)
      (fun _ order state => receiveTlv_accounted order key _ state) heard).covered
  · intro order now start starts
    have aged := (show Silent now start _ from .aged).accounted (starts.accounted accounted)
    have awake := (show Silent now _ _ from .silenced).accounted aged
    exact ((show Silent now _ _ from .unheard).accounted awake).covered

end Metric

section Concrete
open Conformance

theorem one_candidate_is_accounted :
    ∃ s : Harness, s.candidates.containsKey (destination, ⟨link 1, address 2⟩) = true ∧
      ((s.neighbours.get? ⟨link 1, address 2⟩).map Neighbor.candidates) = some 1 ∧
      Accounted s := by
  obtain ⟨history, s, run, stored, counted⟩ := run_of_checked_play anyEvent (harness (nodeId 0))
    [.interfaceUp (link 1) [] 0,
      packet (link 1) (address 2) (greeting 96) 1,
      packet (link 1) (address 2) [routeUpdate destination (address 2) (nodeId 1) 100 0] 2]
    (fun _ (s : Harness) =>
      s.candidates.containsKey (destination, ⟨link 1, address 2⟩) = true ∧
        ((s.neighbours.get? ⟨link 1, address 2⟩).map Neighbor.candidates) = some 1)
    rfl (by decide +kernel)
  exact ⟨s, stored, counted, (admission_accounts_hold run).1⟩

end Concrete

end Engine

end BabelRs
