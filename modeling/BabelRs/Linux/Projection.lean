import BabelRs.Lib.Leaders
import BabelRs.Linux.Export

/-!
# Projection of the selected routes into policy views

Models `linux/projection.rs`: the tables that a route snapshot fills, and the views
that source prefixes get.  A map of the source that is sorted before it is read is an
`OrdMap`.
-/

set_option autoImplicit false

namespace BabelRs

open Lib

structure RouteSnapshot where
  generation : UInt64
  routes : List SelectedRoute
  unreachable : List RouteKey
deriving DecidableEq

namespace Linux

inductive LinuxError where
  | invalidRoute (text : String)
  | interface (name : InterfaceName)
deriving DecidableEq, Repr

structure ProjectedRoute where
  table : UInt32
  key : RouteKey
  selected : Option SelectedRoute
  sourceSpecific : Bool
deriving DecidableEq

structure TableKey where
  table : UInt32
  destination : IpNet
deriving DecidableEq, Repr

def TableKey.code (key : TableKey) : Nat := key.table.toNat * 2 ^ 137 + key.destination.code

theorem TableKey.code_injective : Function.Injective TableKey.code := by
  intro first second same
  have firstBound := first.destination.code_lt
  have secondBound := second.destination.code_lt
  simp only [code] at same
  have tableEq : first.table = second.table := UInt32.toNat_inj.mp (by omega)
  have destinationEq : first.destination = second.destination :=
    IpNet.code_injective (by omega)
  cases first
  cases second
  simp_all

instance : LinearOrder TableKey := LinearOrder.lift' TableKey.code TableKey.code_injective

/-! ## Filling the tables -/

def routeMatchesView (view : ExportView) (key : RouteKey) : Bool :=
  match view.source, key.source with
  | none, none => true
  | some viewSource, none => viewSource.isIpv4 == key.destination.isIpv4
  | some viewSource, some routeSource => routeSource.covers viewSource
  | none, some _ => false

def specificity (key : RouteKey) : Nat := (key.source.map IpNet.prefixLen).getD 0

namespace ProjectedRoute

def slot (route : ProjectedRoute) : TableKey := ⟨route.table, route.key.destination⟩

def rank (route : ProjectedRoute) : Nat := specificity route.key

def finite (view : ExportView) (route : SelectedRoute) : ProjectedRoute :=
  ⟨view.table, route.key, some route, route.key.source.isSome⟩

def hold (view : ExportView) (key : RouteKey) : ProjectedRoute :=
  ⟨view.table, key, none, key.source.isSome⟩

end ProjectedRoute

/-- A finite route takes its slot from a less specific one. -/
def projectRoute (view : ExportView) (projected : OrdMap TableKey ProjectedRoute)
    (route : SelectedRoute) : OrdMap TableKey ProjectedRoute :=
  if !routeMatchesView view route.key || !view.filter.allowsKey route.key then projected
  else
    let key : TableKey := ⟨view.table, route.key.destination⟩
    if (projected.get? key).all fun current =>
        decide (specificity route.key > specificity current.key) then
      projected.insert key (.finite view route)
    else projected

/-- A withdrawal hold passes every filter and yields only to a more specific route. -/
def projectHold (view : ExportView) (projected : OrdMap TableKey ProjectedRoute) (key : RouteKey) :
    OrdMap TableKey ProjectedRoute :=
  if !routeMatchesView view key then projected
  else if (projected.get? ⟨view.table, key.destination⟩).any fun current =>
      decide (specificity current.key > specificity key) then projected
  else projected.insert ⟨view.table, key.destination⟩ (.hold view key)

def projectView (snapshot : RouteSnapshot) (projected : OrdMap TableKey ProjectedRoute)
    (view : ExportView) : OrdMap TableKey ProjectedRoute :=
  snapshot.unreachable.foldl (projectHold view)
    (snapshot.routes.foldl (projectRoute view) projected)

def projection (views : List ExportView) (snapshot : RouteSnapshot) : OrdMap TableKey ProjectedRoute :=
  views.foldl (projectView snapshot) OrdMap.empty

def projectRoutes (views : List ExportView) (snapshot : RouteSnapshot) : List ProjectedRoute :=
  (projection views snapshot).values

/-! ### What is offered to a table -/

def routeOffers (view : ExportView) (route : SelectedRoute) : List ProjectedRoute :=
  if routeMatchesView view route.key && view.filter.allowsKey route.key then [.finite view route] else []

def holdOffers (view : ExportView) (key : RouteKey) : List ProjectedRoute :=
  if routeMatchesView view key then [.hold view key] else []

def viewOffers (snapshot : RouteSnapshot) (view : ExportView) : List ProjectedRoute :=
  snapshot.routes.flatMap (routeOffers view) ++ snapshot.unreachable.flatMap (holdOffers view)

def offers (views : List ExportView) (snapshot : RouteSnapshot) : List ProjectedRoute :=
  views.flatMap (viewOffers snapshot)

abbrev Fills (offered : List ProjectedRoute) (projected : OrdMap TableKey ProjectedRoute) : Prop :=
  Leads ProjectedRoute.slot ProjectedRoute.rank offered projected

theorem projectRoute_fills (view : ExportView) (offered : List ProjectedRoute)
    (projected : OrdMap TableKey ProjectedRoute) (route : SelectedRoute)
    (fills : Fills offered projected) :
    Fills (offered ++ routeOffers view route) (projectRoute view projected route) := by
  unfold projectRoute routeOffers
  cases wanted : routeMatchesView view route.key && view.filter.allowsKey route.key with
  | false =>
    have skipped : (!routeMatchesView view route.key || !view.filter.allowsKey route.key) = true := by
      rw [← Bool.not_and, wanted]
      rfl
    simpa [skipped] using fills
  | true =>
    have taken : (!routeMatchesView view route.key || !view.filter.allowsKey route.key) = false := by
      rw [← Bool.not_and, wanted]
      rfl
    simp only [taken, Bool.false_eq_true, if_false, if_true]
    split
    next wins =>
      refine fills.insert fun leader found => ?_
      have here : projected.get? ⟨view.table, route.key.destination⟩ = some leader := found
      simp only [here, Option.all_some, decide_eq_true_eq] at wins
      exact Nat.le_of_lt wins
    next loses =>
      cases here : projected.get? ⟨view.table, route.key.destination⟩ with
      | none => simp [here] at loses
      | some leader =>
        simp only [here, Option.all_some, decide_eq_true_eq, Nat.not_lt] at loses
        exact fills.keep here loses

theorem projectHold_fills (view : ExportView) (offered : List ProjectedRoute)
    (projected : OrdMap TableKey ProjectedRoute) (key : RouteKey) (fills : Fills offered projected) :
    Fills (offered ++ holdOffers view key) (projectHold view projected key) := by
  unfold projectHold holdOffers
  cases wanted : routeMatchesView view key with
  | false => simpa using fills
  | true =>
    simp only [Bool.not_true, Bool.false_eq_true, if_false, if_true]
    split
    next loses =>
      obtain ⟨leader, here, below⟩ := (Option.any_eq_true _ _).mp loses
      exact fills.keep here (Nat.le_of_lt (of_decide_eq_true below))
    next wins =>
      refine fills.insert fun leader found => ?_
      have here : projected.get? ⟨view.table, key.destination⟩ = some leader := found
      simp only [here, Option.any_some, decide_eq_true_eq, Nat.not_lt] at wins
      exact wins

/-- The tables hold, for each destination, the most specific route offered. -/
theorem projection_fills (views : List ExportView) (snapshot : RouteSnapshot) :
    Fills (offers views snapshot) (projection views snapshot) := by
  have each : ∀ (offered : List ProjectedRoute) (projected : OrdMap TableKey ProjectedRoute)
      (view : ExportView), Fills offered projected →
        Fills (offered ++ viewOffers snapshot view) (projectView snapshot projected view) := by
    intro offered projected view fills
    rw [viewOffers, ← List.append_assoc]
    exact Leads.foldl (projectHold_fills view) _ (Leads.foldl (projectRoute_fills view) _ fills)
  have all := Leads.foldl each views Leads.empty
  rwa [List.nil_append] at all

variable {snapshot : RouteSnapshot} {views : List ExportView}

theorem mem_offers {route : ProjectedRoute} :
    route ∈ offers views snapshot ↔ ∃ view ∈ views, routeMatchesView view route.key = true ∧
      ((∃ selected ∈ snapshot.routes, view.filter.allowsKey selected.key = true ∧
          route = .finite view selected) ∨
        ∃ key ∈ snapshot.unreachable, route = .hold view key) := by
  simp only [offers, viewOffers, List.mem_flatMap, List.mem_append, routeOffers, holdOffers,
    List.mem_ite_nil_right, List.mem_singleton, Bool.and_eq_true]
  constructor
  · rintro ⟨view, listed, ⟨selected, member, ⟨fits, allowed⟩, rfl⟩ | ⟨key, member, fits, rfl⟩⟩
    · exact ⟨view, listed, fits, Or.inl ⟨selected, member, allowed, rfl⟩⟩
    · exact ⟨view, listed, fits, Or.inr ⟨key, member, rfl⟩⟩
  · rintro ⟨view, listed, fits, ⟨selected, member, allowed, rfl⟩ | ⟨key, member, rfl⟩⟩
    · exact ⟨view, listed, Or.inl ⟨selected, member, ⟨fits, allowed⟩, rfl⟩⟩
    · exact ⟨view, listed, Or.inr ⟨key, member, fits, rfl⟩⟩

theorem offered_of_projected {route : ProjectedRoute}
    (member : route ∈ projectRoutes views snapshot) :
    route ∈ offers views snapshot :=
  ((projection_fills views snapshot).offered _ _
    ((projection_fills views snapshot).mem_values.mp member)).1

theorem projected_unique {first second : ProjectedRoute}
    (left : first ∈ projectRoutes views snapshot) (right : second ∈ projectRoutes views snapshot)
    (same : first.slot = second.slot) :
    first = second := by
  have foundFirst := (projection_fills views snapshot).mem_values.mp left
  have foundSecond := (projection_fills views snapshot).mem_values.mp right
  rw [same, foundSecond] at foundFirst
  exact (Option.some.inj foundFirst).symm

/-- An offer is projected unless a route at least as specific has its slot. -/
theorem projected_of_offered {offer : ProjectedRoute} (member : offer ∈ offers views snapshot) :
    ∃ route ∈ projectRoutes views snapshot, route.slot = offer.slot ∧ offer.rank ≤ route.rank := by
  have fills := projection_fills views snapshot
  obtain ⟨leader, found, bound⟩ := fills.best offer member
  have placed := (fills.offered _ _ found).2
  exact ⟨leader, fills.mem_values.mpr (placed ▸ found), placed, bound⟩

/-! ## Source views -/

/-- The first table from `next` on that is not used.  The search is bounded by the
tables in use; `none` is an overflow of the table numbers. -/
def freshTable (used : List UInt32) : Nat → UInt32 → Option UInt32
  | 0, _ => none
  | fuel + 1, next =>
    if used.contains next then
      if next = 0xffffffff then none else freshTable used fuel (next + 1)
    else some next

variable {table : UInt32}

theorem freshTable_unused {used : List UInt32} {fuel : Nat} {next : UInt32}
    (found : freshTable used fuel next = some table) : table ∉ used ∧ next ≤ table := by
  induction fuel generalizing next with
  | zero => cases found
  | succ fuel ih =>
    simp only [freshTable] at found
    split_ifs at found with taken last
    · obtain ⟨unused, above⟩ := ih found
      refine ⟨unused, UInt32.le_trans ?_ above⟩
      rw [UInt32.le_iff_toNat_le, UInt32.toNat_add]
      have small : next.toNat ≠ 0xffffffff := fun same => last (UInt32.toNat_inj.mp same)
      have bound := next.toNat_lt
      simp
      omega
    · obtain rfl := Option.some.inj found
      exact ⟨by simpa using taken, UInt32.le_refl _⟩

/-- The state of the loop that gives every source a view. -/
structure Allocation where
  allocated : OrdMap IpNet UInt32
  used : List UInt32
  next : UInt32
  views : List ExportView

def Allocation.withView (state : Allocation) (table : UInt32) (source : IpNet) : Allocation :=
  { state with views := state.views ++ [ExportView.plain table (some source)] }

def allocateSources : List IpNet → Allocation → Allocation × Except LinuxError Unit
  | [], state => (state, .ok ())
  | source :: rest, state =>
    match state.allocated.get? source with
    | some table => allocateSources rest (state.withView table source)
    | none =>
      match freshTable state.used (state.used.length + 1) state.next with
      | none => (state, .error (.invalidRoute "source table IDs exhausted"))
      | some table =>
        allocateSources rest
          (({ state with
              allocated := state.allocated.insert source table
              used := table :: state.used
              next := table } : Allocation).withView table source)

/-- The source prefixes that need a view and have no explicit one. -/
def activeSources (exports : Export) (snapshot : RouteSnapshot) (held : OrdMap IpNet UInt32) :
    OrdMap IpNet Unit :=
  ((((snapshot.routes.map SelectedRoute.key ++ snapshot.unreachable).filterMap RouteKey.source) ++
      held.keys).filter fun source =>
    !exports.views.any fun view => view.source == some source).foldl
      (fun sources source => sources.insert source ()) OrdMap.empty

/-- The allocations that survive: of active sources, in the automatic range, clear of
the explicit tables. -/
def keptAllocations (exports : Export) (sources : OrdMap IpNet Unit)
    (allocated : OrdMap IpNet UInt32) : OrdMap IpNet UInt32 :=
  allocated.retain fun source table =>
    sources.containsKey source && decide (exports.sourceTableBase ≤ table) &&
      !(exports.views.map ExportView.table).contains table

def extendAllocations (allocated held : OrdMap IpNet UInt32) : OrdMap IpNet UInt32 :=
  held.entries.foldl (fun allocated entry => allocated.insert entry.1 entry.2) allocated

def startAllocation (exports : Export) (sources : OrdMap IpNet Unit)
    (allocated : OrdMap IpNet UInt32) : Allocation :=
  { allocated := keptAllocations exports sources allocated
    used := exports.views.map ExportView.table ++ (keptAllocations exports sources allocated).values
    next := exports.sourceTableBase
    views := exports.views }

/-- The views, and the allocations that the next call finds; they change on a failure
too. -/
def sourceViewsWithRecovery (exports : Export) (snapshot : RouteSnapshot)
    (allocated held : OrdMap IpNet UInt32) :
    Except LinuxError (List ExportView) × OrdMap IpNet UInt32 :=
  if !exports.automaticSources then (.ok exports.views, OrdMap.empty)
  else
    let sources := activeSources exports snapshot held
    let final := allocateSources sources.keys
      (startAllocation exports sources (extendAllocations allocated held))
    (final.2.map fun _ => final.1.views, final.1.allocated)

/-- `SourcePolicy`: a static configuration must have a view for the source itself. -/
def supported (exports : Export) (key : RouteKey) : Bool :=
  key.source.all fun source =>
    exports.automaticSources || exports.views.any fun view => view.source == some source

/-! ### Allocated tables -/

def Injective (allocated : OrdMap IpNet UInt32) : Prop :=
  ∀ first second table, allocated.get? first = some table → allocated.get? second = some table →
    first = second

/-- The allocated tables are in the automatic range and clear of the explicit ones. -/
structure Allocation.Placed (exports : Export) (state : Allocation) : Prop where
  outside : ∀ source table, state.allocated.get? source = some table →
    exports.sourceTableBase ≤ table ∧ table ∉ exports.views.map ExportView.table
  explicit : ∀ table ∈ exports.views.map ExportView.table, table ∈ state.used
  started : exports.sourceTableBase ≤ state.next

/-- The allocated tables are also apart from each other. -/
structure Allocation.Sound (exports : Export) (state : Allocation) : Prop
    extends Allocation.Placed exports state where
  distinct : Injective state.allocated
  known : ∀ source table, state.allocated.get? source = some table → table ∈ state.used

section Allocate
variable {exports : Export} {state : Allocation} {fuel : Nat} {source : IpNet} {table : UInt32}

theorem Allocation.Placed.allocate (placed : state.Placed exports)
    (found : freshTable state.used fuel state.next = some table) :
    ({ state with
        allocated := state.allocated.insert source table
        used := table :: state.used
        next := table } : Allocation).Placed exports := by
  obtain ⟨unused, above⟩ := freshTable_unused found
  refine ⟨?_, fun other member => List.mem_cons_of_mem _ (placed.explicit other member),
    UInt32.le_trans placed.started above⟩
  intro other given inserted
  simp only [OrdMap.get?_insert] at inserted
  split_ifs at inserted
  · obtain rfl := Option.some.inj inserted
    exact ⟨UInt32.le_trans placed.started above, fun listed => unused (placed.explicit _ listed)⟩
  · exact placed.outside other given inserted

theorem Allocation.Sound.allocate (sound : state.Sound exports)
    (found : freshTable state.used fuel state.next = some table) :
    ({ state with
        allocated := state.allocated.insert source table
        used := table :: state.used
        next := table } : Allocation).Sound exports := by
  obtain ⟨unused, above⟩ := freshTable_unused found
  refine ⟨sound.toPlaced.allocate found, ?_, ?_⟩
  · intro first second shared left right
    simp only [OrdMap.get?_insert] at left right
    split_ifs at left right with here there there
    · exact here.symm.trans there
    · obtain rfl := Option.some.inj left
      exact absurd (sound.known second _ right) unused
    · obtain rfl := Option.some.inj right
      exact absurd (sound.known first _ left) unused
    · exact sound.distinct first second shared left right
  · intro other given placed
    simp only [OrdMap.get?_insert] at placed
    split_ifs at placed
    · obtain rfl := Option.some.inj placed
      exact List.mem_cons_self
    · exact List.mem_cons_of_mem _ (sound.known other given placed)

end Allocate

variable {state : Allocation}

/-- What a view and a fresh allocation keep, the loop keeps. -/
theorem allocateSources_keeps {Inv : Allocation → Prop}
    (viewed : ∀ state table source, Inv state → Inv (state.withView table source))
    (fresh : ∀ state source table, Inv state →
      freshTable state.used (state.used.length + 1) state.next = some table →
      Inv { state with
        allocated := state.allocated.insert source table
        used := table :: state.used
        next := table }) (sources : List IpNet) (holds : Inv state) :
    Inv (allocateSources sources state).1 := by
  induction sources generalizing state with
  | nil => exact holds
  | cons source rest ih =>
    cases known : state.allocated.get? source with
    | some table =>
      simp only [allocateSources, known]
      exact ih (viewed _ _ _ holds)
    | none =>
      cases found : freshTable state.used (state.used.length + 1) state.next with
      | none =>
        simp only [allocateSources, known, found]
        exact holds
      | some table =>
        simp only [allocateSources, known, found]
        exact ih (viewed _ _ _ (fresh _ _ _ holds found))

variable {exports : Export}

theorem allocateSources_placed (sources : List IpNet) (placed : state.Placed exports) :
    (allocateSources sources state).1.Placed exports :=
  allocateSources_keeps (fun _ _ _ holds => ⟨holds.outside, holds.explicit, holds.started⟩)
    (fun _ _ _ holds found => holds.allocate found) sources placed

theorem allocateSources_sound (sources : List IpNet) (sound : state.Sound exports) :
    (allocateSources sources state).1.Sound exports :=
  allocateSources_keeps
    (fun _ _ _ holds => ⟨⟨holds.outside, holds.explicit, holds.started⟩, holds.distinct, holds.known⟩)
    (fun _ _ _ holds found => holds.allocate found) sources sound

/-- The loop only adds allocations, and only for its sources. -/
structure Allocates (sources : List IpNet) (state final : Allocation) : Prop where
  kept : ∀ source table, state.allocated.get? source = some table →
    final.allocated.get? source = some table
  listed : ∀ source table, final.allocated.get? source = some table →
    source ∈ sources ∨ state.allocated.get? source = some table

theorem allocateSources_allocates (sources : List IpNet) (state : Allocation) :
    Allocates sources state (allocateSources sources state).1 := by
  induction sources generalizing state with
  | nil => exact ⟨fun _ _ => id, fun _ _ => Or.inr⟩
  | cons source rest ih =>
    cases known : state.allocated.get? source with
    | some table =>
      simp only [allocateSources, known]
      have later := ih (state.withView table source)
      exact ⟨later.kept, fun other given found =>
        (later.listed other given found).imp_left (List.mem_cons_of_mem _)⟩
    | none =>
      cases fresh : freshTable state.used (state.used.length + 1) state.next with
      | none =>
        simp only [allocateSources, known, fresh]
        exact ⟨fun _ _ => id, fun _ _ => Or.inr⟩
      | some table =>
        simp only [allocateSources, known, fresh]
        refine ⟨fun other given before => (ih _).kept other given ?_, ?_⟩
        · change (state.allocated.insert source table).get? other = some given
          rw [OrdMap.get?_insert_of_ne]
          · exact before
          · rintro rfl
            rw [known] at before
            cases before
        · intro other given found
          rcases (ih _).listed other given found with member | before
          · exact Or.inl (List.mem_cons_of_mem _ member)
          · change (state.allocated.insert source table).get? other = some given at before
            rw [OrdMap.get?_insert] at before
            split_ifs at before with here
            · exact Or.inl (here ▸ List.mem_cons_self)
            · exact Or.inr before

def allocatedView (allocated : OrdMap IpNet UInt32) (source : IpNet) : ExportView :=
  ExportView.plain ((allocated.get? source).getD 0) (some source)

/-- A loop that does not run out of tables gives every source a table and a view. -/
theorem allocateSources_complete (sources : List IpNet) (state : Allocation)
    (done : (allocateSources sources state).2 = .ok ()) :
    (∀ source ∈ sources, ((allocateSources sources state).1.allocated.get? source).isSome = true) ∧
      (allocateSources sources state).1.views = state.views ++
        sources.map (allocatedView (allocateSources sources state).1.allocated) := by
  induction sources generalizing state with
  | nil => exact ⟨by simp, by simp [allocateSources]⟩
  | cons source rest ih =>
    have continued : ∀ (next : Allocation) (table : UInt32), next.views = state.views →
        next.allocated.get? source = some table →
        (allocateSources rest (next.withView table source)).2 = .ok () →
        (∀ other ∈ source :: rest, ((allocateSources rest
            (next.withView table source)).1.allocated.get? other).isSome = true) ∧
          (allocateSources rest (next.withView table source)).1.views = state.views ++
            (source :: rest).map
              (allocatedView (allocateSources rest (next.withView table source)).1.allocated) := by
      intro next table views placed finished
      obtain ⟨given, shape⟩ := ih (next.withView table source) finished
      have here := (allocateSources_allocates rest (next.withView table source)).kept
        source table placed
      refine ⟨?_, ?_⟩
      · intro other member
        rcases List.mem_cons.mp member with rfl | later
        · rw [here]
          rfl
        · exact given other later
      · rw [shape, List.map_cons, allocatedView, here, Allocation.withView, views]
        simp
    cases known : state.allocated.get? source with
    | some table =>
      simp only [allocateSources, known] at done ⊢
      exact continued state table rfl known done
    | none =>
      cases fresh : freshTable state.used (state.used.length + 1) state.next with
      | none => simp [allocateSources, known, fresh] at done
      | some table =>
        simp only [allocateSources, known, fresh] at done ⊢
        exact continued _ table rfl (OrdMap.get?_insert_self _ _ _) done

/-- A loop whose sources all have tables allocates nothing. -/
theorem allocateSources_known (sources : List IpNet) (state : Allocation)
    (known : ∀ source ∈ sources, (state.allocated.get? source).isSome = true) :
    allocateSources sources state =
      ({ state with views := state.views ++ sources.map (allocatedView state.allocated) }, .ok ()) := by
  induction sources generalizing state with
  | nil => simp [allocateSources]
  | cons source rest ih =>
    obtain ⟨table, found⟩ := Option.isSome_iff_exists.mp (known source List.mem_cons_self)
    have later := ih (state.withView table source)
      fun other member => known other (List.mem_cons_of_mem _ member)
    simp only [allocateSources, found]
    rw [later]
    simp [Allocation.withView, allocatedView, found]

variable {allocated : OrdMap IpNet UInt32} {sources : OrdMap IpNet Unit} {source : IpNet}

theorem get?_keptAllocations :
    (keptAllocations exports sources allocated).get? source = some table ↔
      allocated.get? source = some table ∧ sources.containsKey source = true ∧
        exports.sourceTableBase ≤ table ∧ table ∉ exports.views.map ExportView.table := by
  rw [keptAllocations, OrdMap.get?_retain, Option.filter_eq_some_iff]
  simp only [Bool.and_eq_true, decide_eq_true_eq, Bool.not_eq_true', List.contains_eq_mem,
    decide_eq_false_iff_not, and_assoc]

theorem startAllocation_placed (exports : Export) (sources : OrdMap IpNet Unit)
    (allocated : OrdMap IpNet UInt32) :
    (startAllocation exports sources allocated).Placed exports where
  outside := fun _ _ found => (get?_keptAllocations.mp found).2.2
  explicit := fun _ member => List.mem_append_left _ member
  started := UInt32.le_refl _

theorem startAllocation_sound (distinct : Injective allocated) :
    (startAllocation exports sources allocated).Sound exports where
  toPlaced := startAllocation_placed exports sources allocated
  distinct := fun first second table left right =>
    distinct first second table (get?_keptAllocations.mp left).1 (get?_keptAllocations.mp right).1
  known := fun source _ found =>
    List.mem_append_right _ (OrdMap.mem_values_iff.mpr ⟨source, found⟩)

variable {held : OrdMap IpNet UInt32}

theorem containsKey_activeSources :
    (activeSources exports snapshot held).containsKey source = true ↔
      ((∃ key ∈ snapshot.routes.map SelectedRoute.key ++ snapshot.unreachable,
          key.source = some source) ∨ held.containsKey source = true) ∧
        ∀ view ∈ exports.views, view.source ≠ some source := by
  have listed : ∀ sources : List IpNet,
      (sources.foldl (fun sources source => sources.insert source ())
        (OrdMap.empty : OrdMap IpNet Unit)).containsKey source = true ↔ source ∈ sources := by
    intro sources
    rw [OrdMap.containsKey, OrdMap.get?_foldl_insert]
    split_ifs with member <;> simp [member]
  rw [activeSources, listed, List.mem_filter, List.mem_append, List.mem_filterMap,
    OrdMap.mem_keys_iff]
  simp

def viewedSources (exports : Export) (snapshot : RouteSnapshot) (held : OrdMap IpNet UInt32) :
    OrdMap IpNet Unit :=
  if exports.automaticSources then activeSources exports snapshot held else OrdMap.empty

/-- What the resolved views are: the explicit ones, and one for each further source, in
a table that nobody else has. -/
structure Resolution (exports : Export) (sources : OrdMap IpNet Unit) (views : List ExportView)
    (allocated : OrdMap IpNet UInt32) : Prop where
  explicit : ∀ view ∈ exports.views, view ∈ views
  added : ∀ view ∈ views, view ∈ exports.views ∨ ∃ source, sources.containsKey source = true ∧
    allocated.get? source = some view.table ∧ view = ExportView.plain view.table (some source)
  served : ∀ source, sources.containsKey source = true → ∃ view ∈ views, view.source = some source
  distinct : Injective allocated
  outside : ∀ source table, allocated.get? source = some table →
    exports.sourceTableBase ≤ table ∧ table ∉ exports.views.map ExportView.table

theorem sourceViews_resolution (distinct : Injective (extendAllocations allocated held))
    (resolved : (sourceViewsWithRecovery exports snapshot allocated held).1 = .ok views) :
    Resolution exports (viewedSources exports snapshot held) views
      (sourceViewsWithRecovery exports snapshot allocated held).2 := by
  unfold sourceViewsWithRecovery at resolved ⊢
  unfold viewedSources
  cases automatic : exports.automaticSources with
  | false =>
    simp only [automatic, Bool.not_false, if_true, Except.ok.injEq] at resolved ⊢
    subst resolved
    exact ⟨fun _ => id, fun _ => Or.inl, (fun _ found => by cases found),
      (fun _ _ _ found => by cases found), fun _ _ found => by cases found⟩
  | true =>
    simp only [automatic, Bool.not_true, Bool.false_eq_true, if_false, if_true] at resolved ⊢
    set sources := activeSources exports snapshot held with sourcesEq
    set start := startAllocation exports sources (extendAllocations allocated held) with startEq
    have sound := allocateSources_sound sources.keys (startAllocation_sound distinct :
      start.Sound exports)
    cases finished : (allocateSources sources.keys start).2 with
    | error failure => simp [finished, Except.map] at resolved
    | ok _ =>
      simp only [finished, Except.map, Except.ok.injEq] at resolved
      subst resolved
      obtain ⟨given, shape⟩ := allocateSources_complete sources.keys start finished
      rw [shape]
      refine ⟨fun view member => List.mem_append_left _ member, ?_, ?_, sound.distinct,
        sound.outside⟩
      · intro view member
        rcases List.mem_append.mp member with explicit | added
        · exact Or.inl explicit
        · obtain ⟨source, listed, rfl⟩ := List.mem_map.mp added
          obtain ⟨table, found⟩ := Option.isSome_iff_exists.mp (given source listed)
          refine Or.inr ⟨source, OrdMap.mem_keys_iff.mp listed, ?_, rfl⟩
          simp [allocatedView, ExportView.plain, found]
      · intro source listed
        exact ⟨_, List.mem_append_right _ (List.mem_map_of_mem (OrdMap.mem_keys_iff.mpr listed)),
          rfl⟩

/-- The allocations stay apart, whether or not there were enough tables. -/
theorem sourceViews_injective (distinct : Injective (extendAllocations allocated held)) :
    Injective (sourceViewsWithRecovery exports snapshot allocated held).2 := by
  unfold sourceViewsWithRecovery
  split
  · intro first second table found
    cases found
  · exact (allocateSources_sound _ (startAllocation_sound distinct)).distinct

/-- Two resolved views share a table only if both are explicit. -/
theorem Resolution.shared_explicit (resolution : Resolution exports sources views allocated)
    {first second : ExportView} (left : first ∈ views) (right : second ∈ views)
    (same : first.table = second.table) :
    first = second ∨ first ∈ exports.views ∧ second ∈ exports.views := by
  rcases resolution.added first left with explicit | ⟨source, _, found, shape⟩
  · rcases resolution.added second right with otherExplicit | ⟨other, _, found, _⟩
    · exact Or.inr ⟨explicit, otherExplicit⟩
    · refine absurd ?_ (resolution.outside other _ found).2
      exact List.mem_map.mpr ⟨first, explicit, same⟩
  · rcases resolution.added second right with explicit | ⟨other, _, otherFound, otherShape⟩
    · refine absurd ?_ (resolution.outside source _ found).2
      exact List.mem_map.mpr ⟨second, explicit, same.symm⟩
    · left
      rw [same] at found
      obtain rfl := resolution.distinct source other _ found otherFound
      rw [shape, otherShape, same]

/-- And then they are source views of both families. -/
theorem Resolution.tables_apart (resolution : Resolution exports sources views allocated)
    (valid : exports.Valid) {first second : ExportView} (left : first ∈ views)
    (right : second ∈ views) (same : first.table = second.table) :
    first = second ∨ ∃ l r, first.source = some l ∧ second.source = some r ∧ l.isIpv4 ≠ r.isIpv4 := by
  by_cases equal : first = second
  · exact Or.inl equal
  · obtain ⟨explicit, otherExplicit⟩ :=
      (resolution.shared_explicit left right same).resolve_left equal
    exact Or.inr (valid.families_of_ne explicit otherExplicit equal same)

/-- A call gives a held source its held table, even if it fails. -/
theorem sourceViews_holds (automatic : exports.automaticSources = true)
    (found : held.get? source = some table)
    (outside : exports.sourceTableBase ≤ table ∧ table ∉ exports.views.map ExportView.table)
    (unviewed : ∀ view ∈ exports.views, view.source ≠ some source) :
    (sourceViewsWithRecovery exports snapshot allocated held).2.get? source = some table := by
  simp only [sourceViewsWithRecovery, automatic, Bool.not_true, Bool.false_eq_true, if_false]
  refine (allocateSources_allocates _ _).kept source table
    (get?_keptAllocations.mpr ⟨?_, ?_, outside⟩)
  · rw [extendAllocations, OrdMap.get?_foldl_entries, found, Option.some_or]
  · exact containsKey_activeSources.mpr
      ⟨Or.inr (OrdMap.containsKey_iff.mpr ⟨table, found⟩), unviewed⟩

/-- A second call finds what the first one left: if the held sources only became fewer
and nobody went inactive, the views and the allocations are the same. -/
theorem sourceViews_again {later : OrdMap IpNet UInt32}
    (resolved : (sourceViewsWithRecovery exports snapshot allocated held).1 = .ok views)
    (outside : ∀ source table, held.get? source = some table →
      exports.sourceTableBase ≤ table ∧ table ∉ exports.views.map ExportView.table)
    (unviewed : ∀ source, held.containsKey source = true → ∀ view ∈ exports.views,
      view.source ≠ some source)
    (fewer : ∀ source table, later.get? source = some table → held.get? source = some table)
    (active : activeSources exports snapshot later = activeSources exports snapshot held) :
    sourceViewsWithRecovery exports snapshot
        (sourceViewsWithRecovery exports snapshot allocated held).2 later =
      (.ok views, (sourceViewsWithRecovery exports snapshot allocated held).2) := by
  have holds : exports.automaticSources = true → ∀ source table, later.get? source = some table →
      (sourceViewsWithRecovery exports snapshot allocated held).2.get? source = some table := by
    intro automatic source table found
    have before := fewer source table found
    exact sourceViews_holds automatic before (outside source table before)
      (unviewed source (OrdMap.containsKey_iff.mpr ⟨table, before⟩))
  unfold sourceViewsWithRecovery at resolved holds ⊢
  cases automatic : exports.automaticSources with
  | false =>
    simp only [automatic, Bool.not_false, if_true, Except.ok.injEq] at resolved ⊢
    rw [resolved]
  | true =>
    simp only [automatic, Bool.not_true, Bool.false_eq_true, if_false, active, forall_const]
      at resolved holds ⊢
    set sources := activeSources exports snapshot held with sourcesEq
    set start := startAllocation exports sources (extendAllocations allocated held) with startEq
    set final := (allocateSources sources.keys start).1 with finalEq
    have allocates := allocateSources_allocates sources.keys start
    have placed := allocateSources_placed sources.keys (startAllocation_placed exports sources
      (extendAllocations allocated held))
    cases finished : (allocateSources sources.keys start).2 with
    | error failure => simp [finished, Except.map] at resolved
    | ok _ =>
      simp only [finished, Except.map, Except.ok.injEq] at resolved
      obtain ⟨given, shape⟩ := allocateSources_complete sources.keys start finished
      have same : keptAllocations exports sources (extendAllocations final.allocated later) =
          final.allocated := by
        have extended : extendAllocations final.allocated later = final.allocated := by
          refine OrdMap.ext_get? fun source => ?_
          rw [extendAllocations, OrdMap.get?_foldl_entries]
          cases found : later.get? source with
          | none => rfl
          | some table => rw [holds source table found, Option.some_or]
        rw [extended]
        refine OrdMap.ext_get? fun source => Option.ext fun table => ?_
        rw [get?_keptAllocations]
        refine ⟨fun kept => kept.1, fun found => ⟨found, ?_, placed.outside source table found⟩⟩
        rcases allocates.listed source table found with listed | before
        · exact OrdMap.mem_keys_iff.mp listed
        · exact (get?_keptAllocations.mp before).2.1
      have again := allocateSources_known sources.keys
        (startAllocation exports sources (extendAllocations final.allocated later)) (by
          simpa only [startAllocation, same] using given)
      rw [again]
      simp only [startAllocation, same, Except.map]
      rw [← resolved, shape]
      rfl

end Linux

end BabelRs
