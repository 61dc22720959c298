import BabelRs.Linux.Projection
import Mathlib.Data.List.MinMax
import Mathlib.Data.Prod.Lex

/-!
# Source-specific forwarding

The lookup by destination and source is compiled into tables that are searched by
destination alone.  A packet tries the source views that contain its source address,
by rule priority, and then an ordinary table.  Validation makes the most specific
view the first, and that view inherits every route whose source contains its own.
-/

set_option autoImplicit false

namespace BabelRs

open Lib

def RouteKey.Canonical (key : RouteKey) : Prop :=
  RouteKey.new key.destination key.source = some key

instance (key : RouteKey) : Decidable key.Canonical :=
  inferInstanceAs (Decidable (RouteKey.new key.destination key.source = some key))

variable {key : RouteKey}

theorem RouteKey.Canonical.destination (canonical : key.Canonical) :
    key.destination.trunc = key.destination := by
  unfold RouteKey.Canonical RouteKey.new at canonical
  split_ifs at canonical
  exact congrArg RouteKey.destination (Option.some.inj canonical)

theorem RouteKey.Canonical.source (canonical : key.Canonical) {source : IpNet}
    (named : key.source = some source) :
    source.trunc = source ∧ source.prefixLen ≠ 0 ∧ source.isIpv4 = key.destination.isIpv4 := by
  unfold RouteKey.Canonical RouteKey.new at canonical
  split_ifs at canonical with mixed
  have same := congrArg RouteKey.source (Option.some.inj canonical)
  simp only [named, Option.any_some, bne_iff_ne, ne_eq, not_not] at mixed
  simp only [named, Option.map_eq_some_iff, Option.filter_eq_some_iff, bne_iff_ne] at same
  obtain ⟨original, ⟨here, long⟩, truncated⟩ := same
  obtain rfl := Option.some.inj here
  exact ⟨truncated, long, mixed⟩

namespace Linux

/-! ## The two lookups -/

def entries (snapshot : RouteSnapshot) : List (RouteKey × Option SelectedRoute) :=
  (snapshot.routes.map fun route => (route.key, some route)) ++
    snapshot.unreachable.map fun key => (key, none)

def applies (src dst : IpAddr) (key : RouteKey) : Bool :=
  key.destination.contains dst && key.source.all fun source => source.contains src

/-- Destination first, then source. -/
def precedence (entry : RouteKey × Option SelectedRoute) : ℕ ×ₗ ℕ :=
  toLex (entry.1.destination.prefixLen, specificity entry.1)

/-- The route that RFC 9079 gives a packet. -/
def destinationFirst (snapshot : RouteSnapshot) (src dst : IpAddr) :
    Option (RouteKey × Option SelectedRoute) :=
  ((entries snapshot).filter fun entry => applies src dst entry.1).argmax precedence

def lookup (projected : List ProjectedRoute) (dst : IpAddr) (table : UInt32) : Option ProjectedRoute :=
  (projected.filter fun route => route.table == table && route.key.destination.contains dst).argmax
    fun route => route.key.destination.prefixLen

/-- The first table with a match decides. -/
def forward (projected : List ProjectedRoute) (dst : IpAddr) (tables : List UInt32) :
    Option (RouteKey × Option SelectedRoute) :=
  (tables.findSome? (lookup projected dst)).map fun route => (route.key, route.selected)

section Lookup
variable {projected : List ProjectedRoute} {dst : IpAddr} {table : UInt32} {route : ProjectedRoute}

theorem lookup_spec (found : lookup projected dst table = some route) :
    route ∈ projected ∧ route.table = table ∧ route.key.destination.contains dst = true := by
  have member := List.mem_filter.mp (List.argmax_mem found)
  rw [Bool.and_eq_true, beq_iff_eq] at member
  exact member

theorem lookup_longest (found : lookup projected dst table = some route) {other : ProjectedRoute}
    (member : other ∈ projected) (placed : other.table = table)
    (inside : other.key.destination.contains dst = true) :
    other.key.destination.prefixLen ≤ route.key.destination.prefixLen :=
  List.le_of_mem_argmax (f := fun route : ProjectedRoute => route.key.destination.prefixLen)
    (List.mem_filter.mpr ⟨member, by simp [placed, inside]⟩) found

theorem lookup_exists {other : ProjectedRoute} (member : other ∈ projected)
    (placed : other.table = table) (inside : other.key.destination.contains dst = true) :
    ∃ route, lookup projected dst table = some route := by
  rw [← Option.ne_none_iff_exists', lookup, Ne, List.argmax_eq_none]
  exact List.ne_nil_of_mem (List.mem_filter.mpr ⟨member, by simp [placed, inside]⟩)

end Lookup

/-! ## Tables and entries -/

section Tables
variable {exports : Export} {snapshot : RouteSnapshot} {views : List ExportView}
  {allocated : OrdMap IpNet UInt32} {sources : OrdMap IpNet Unit} {src dst : IpAddr}

theorem entry_of_projected {route : ProjectedRoute} (member : route ∈ projectRoutes views snapshot) :
    ∃ view ∈ views, route.table = view.table ∧ routeMatchesView view route.key = true ∧
      (route.key, route.selected) ∈ entries snapshot := by
  obtain ⟨view, listed, fits, ⟨selected, known, _, rfl⟩ | ⟨key, known, rfl⟩⟩ :=
    mem_offers.mp (offered_of_projected member)
  · exact ⟨view, listed, rfl, fits, List.mem_append_left _ (List.mem_map.mpr ⟨selected, known, rfl⟩)⟩
  · exact ⟨view, listed, rfl, fits, List.mem_append_right _ (List.mem_map.mpr ⟨key, known, rfl⟩)⟩

variable {view : ExportView} {entry : RouteKey × Option SelectedRoute}

theorem offered_of_entry (listed : view ∈ views) (unfiltered : view.filter = Policy.Filter.all)
    (member : entry ∈ entries snapshot) (fits : routeMatchesView view entry.1 = true) :
    ∃ offer ∈ offers views snapshot, offer.table = view.table ∧ offer.key = entry.1 := by
  rcases List.mem_append.mp member with finite | held
  · obtain ⟨route, known, rfl⟩ := List.mem_map.mp finite
    refine ⟨.finite view route, mem_offers.mpr ⟨view, listed, fits, Or.inl ⟨route, known, ?_, rfl⟩⟩,
      rfl, rfl⟩
    rw [unfiltered]
    rfl
  · obtain ⟨key, known, rfl⟩ := List.mem_map.mp held
    exact ⟨.hold view key, mem_offers.mpr ⟨view, listed, fits, Or.inr ⟨key, known, rfl⟩⟩, rfl, rfl⟩

/-- The family of a matched destination is that of the view's source. -/
theorem family_of_matches (canonical : key.Canonical) (fits : routeMatchesView view key = true)
    {source : IpNet} (named : view.source = some source) :
    key.destination.isIpv4 = source.isIpv4 := by
  unfold routeMatchesView at fits
  rw [named] at fits
  cases origin : key.source with
  | none =>
    simp only [origin, beq_iff_eq] at fits
    exact fits.symm
  | some routeSource =>
    simp only [origin] at fits
    rw [← (canonical.source origin).2.2]
    exact IpNet.family_of_covers fits

/-- Keys about one packet are determined by the lengths of their prefixes. -/
theorem key_eq_of_applies {first second : RouteKey} (canonical : first.Canonical)
    (otherCanonical : second.Canonical) (about : applies src dst first = true)
    (otherAbout : applies src dst second = true)
    (sameLength : first.destination.prefixLen = second.destination.prefixLen)
    (sameSpecificity : specificity first = specificity second) : first = second := by
  obtain ⟨inside, from'⟩ := Bool.and_eq_true_iff.mp about
  obtain ⟨otherInside, otherFrom⟩ := Bool.and_eq_true_iff.mp otherAbout
  have destinations : first.destination = second.destination :=
    IpNet.eq_of_contains inside otherInside sameLength canonical.destination
      otherCanonical.destination
  have sources : first.source = second.source := by
    unfold specificity at sameSpecificity
    cases here : first.source with
    | none =>
      cases there : second.source with
      | none => rfl
      | some source =>
        rw [here, there] at sameSpecificity
        exact absurd sameSpecificity.symm (otherCanonical.source there).2.1
    | some source =>
      cases there : second.source with
      | none =>
        rw [here, there] at sameSpecificity
        exact absurd sameSpecificity (canonical.source here).2.1
      | some other =>
        rw [here, there] at sameSpecificity
        simp only [here, Option.all_some] at from'
        simp only [there, Option.all_some] at otherFrom
        rw [IpNet.eq_of_contains from' otherFrom sameSpecificity (canonical.source here).1
          (otherCanonical.source there).1]
  cases first
  cases second
  simp_all

/-- The table of a view that a packet tries holds only what is about the packet. -/
theorem applies_of_projected (resolution : Resolution exports sources views allocated)
    (valid : exports.Valid) (canonical : ∀ entry ∈ entries snapshot, entry.1.Canonical)
    (family : src.isIpv4 = dst.isIpv4) (listed : view ∈ views)
    (tried : view.source.all (fun source => source.contains src) = true) {route : ProjectedRoute}
    (member : route ∈ projectRoutes views snapshot) (placed : route.table = view.table)
    (inside : route.key.destination.contains dst = true) : applies src dst route.key = true := by
  obtain ⟨filler, fillerListed, fillerTable, fits, known⟩ := entry_of_projected member
  rw [applies, inside, Bool.true_and]
  rcases resolution.tables_apart valid fillerListed listed (fillerTable.symm.trans placed) with
    rfl | ⟨l, r, fillerSource, viewSource, apart⟩
  · cases origin : route.key.source with
    | none => rfl
    | some routeSource =>
      cases named : filler.source with
      | none => simp [routeMatchesView, origin, named] at fits
      | some source =>
        simp only [routeMatchesView, origin, named] at fits
        simp only [named, Option.all_some] at tried
        exact IpNet.contains_of_covers fits tried
  · -- The other family's view fills the table with its own family only.
    exfalso
    apply apart
    rw [← family_of_matches (canonical _ known) fits fillerSource, IpNet.family_of_contains inside,
      ← family]
    simp only [viewSource, Option.all_some] at tried
    exact (IpNet.family_of_contains tried).symm

/-- Without an entry about a packet, no table that the packet tries has a match. -/
theorem lookup_eq_none (resolution : Resolution exports sources views allocated)
    (valid : exports.Valid) (canonical : ∀ entry ∈ entries snapshot, entry.1.Canonical)
    (family : src.isIpv4 = dst.isIpv4) (listed : view ∈ views)
    (tried : view.source.all (fun source => source.contains src) = true)
    (unknown : destinationFirst snapshot src dst = none) :
    lookup (projectRoutes views snapshot) dst view.table = none := by
  cases found : lookup (projectRoutes views snapshot) dst view.table with
  | none => rfl
  | some route =>
    obtain ⟨projected, placed, inside⟩ := lookup_spec found
    obtain ⟨_, _, _, _, known⟩ := entry_of_projected projected
    have about := applies_of_projected resolution valid canonical family listed tried
      projected placed inside
    have member : (route.key, route.selected) ∈
        (entries snapshot).filter fun entry => applies src dst entry.1 :=
      List.mem_filter.mpr ⟨known, about⟩
    rw [List.argmax_eq_none.mp unknown] at member
    cases member

/-- A view whose table has every entry about a packet answers as the oracle does. -/
theorem lookup_eq_destinationFirst (resolution : Resolution exports sources views allocated)
    (valid : exports.Valid) (canonical : ∀ entry ∈ entries snapshot, entry.1.Canonical)
    (distinct : ((entries snapshot).map Prod.fst).Nodup) (family : src.isIpv4 = dst.isIpv4)
    (listed : view ∈ views) (unfiltered : view.filter = Policy.Filter.all)
    (tried : view.source.all (fun source => source.contains src) = true)
    (complete : ∀ entry ∈ entries snapshot, applies src dst entry.1 = true →
      routeMatchesView view entry.1 = true) :
    (lookup (projectRoutes views snapshot) dst view.table).map (fun route =>
      (route.key, route.selected)) = destinationFirst snapshot src dst := by
  -- Every entry about the packet has a projected route of its destination to beat it.
  have beaten : ∀ entry ∈ entries snapshot, applies src dst entry.1 = true →
      ∃ route ∈ projectRoutes views snapshot, route.table = view.table ∧
        route.key.destination = entry.1.destination ∧ specificity entry.1 ≤ specificity route.key := by
    intro entry member about
    obtain ⟨offer, offered, placed, named⟩ :=
      offered_of_entry listed unfiltered member (complete entry member about)
    obtain ⟨route, projected, slot, bound⟩ := projected_of_offered offered
    refine ⟨route, projected, (congrArg TableKey.table slot).trans placed, ?_, ?_⟩
    · rw [← named]
      exact congrArg TableKey.destination slot
    · rw [← named]
      exact bound
  cases answer : destinationFirst snapshot src dst with
  | none =>
    rw [lookup_eq_none resolution valid canonical family listed tried answer]
    rfl
  | some best =>
    obtain ⟨bestKnown, bestAbout⟩ := List.mem_filter.mp (List.argmax_mem answer)
    have bestInside : best.1.destination.contains dst = true := (Bool.and_eq_true_iff.mp bestAbout).1
    obtain ⟨rival, rivalProjected, rivalPlaced, rivalSame, rivalBound⟩ :=
      beaten best bestKnown bestAbout
    obtain ⟨route, found⟩ := lookup_exists rivalProjected rivalPlaced
      (by rw [rivalSame]; exact bestInside)
    obtain ⟨projected, placed, inside⟩ := lookup_spec found
    obtain ⟨_, _, _, _, known⟩ := entry_of_projected projected
    have about := applies_of_projected resolution valid canonical family listed tried
      projected placed inside
    -- The lookup is no shorter than the oracle's choice, and no longer either.
    have longest : best.1.destination.prefixLen ≤ route.key.destination.prefixLen := by
      rw [← rivalSame]
      exact lookup_longest found rivalProjected rivalPlaced (by rw [rivalSame]; exact bestInside)
    have dominated : precedence (route.key, route.selected) ≤ precedence best :=
      List.le_of_mem_argmax (f := precedence) (List.mem_filter.mpr ⟨known, about⟩) answer
    rw [precedence, precedence, Prod.Lex.toLex_le_toLex] at dominated
    have sameLength : route.key.destination.prefixLen = best.1.destination.prefixLen := by
      rcases dominated with shorter | ⟨same, _⟩
      · exact absurd longest (Nat.not_le.mpr shorter)
      · exact same
    have sameDestination : route.key.destination = best.1.destination :=
      IpNet.eq_of_contains inside bestInside sameLength (canonical _ known).destination
        (canonical _ bestKnown).destination
    have sameRoute : rival = route := projected_unique rivalProjected projected (by
      rw [ProjectedRoute.slot, ProjectedRoute.slot, rivalPlaced, placed, rivalSame, sameDestination])
    have sameSpecificity : specificity route.key = specificity best.1 := by
      apply Nat.le_antisymm
      · rcases dominated with shorter | ⟨_, bound⟩
        · exact absurd longest (Nat.not_le.mpr shorter)
        · exact bound
      · exact sameRoute ▸ rivalBound
    have sameKey : route.key = best.1 := key_eq_of_applies (canonical _ known)
      (canonical _ bestKnown) about bestAbout sameLength sameSpecificity
    rw [found]
    exact congrArg some (List.inj_on_of_nodup_map distinct known bestKnown sameKey)

/-! ## The order of the views -/

theorem toNat_defaultPriority {source : Option IpNet} (valid : exports.Valid) :
    (exports.defaultPriority source).toNat =
      exports.sourceRulePriority.toNat + (128 - (source.map IpNet.prefixLen).getD 0) := by
  have base := UInt32.le_iff_toNat_le.mp valid.base
  have small : (32638 : UInt32).toNat = 32638 := rfl
  rw [Export.defaultPriority, UInt32.toNat_ofNat', Nat.min_eq_left (by omega),
    Nat.mod_eq_of_lt (by omega)]

theorem prefixLen_le (net : IpNet) : net.prefixLen ≤ 128 := by
  cases net with
  | v4 _ len => exact Nat.le_of_lt_succ (Nat.lt_of_lt_of_le len.isLt (by omega))
  | v6 _ len => exact Nat.le_of_lt_succ len.isLt

/-- Among the views of one address, the longer prefix has the earlier rule. -/
theorem priority_lt_of_longer (valid : exports.Valid)
    (resolution : Resolution exports (viewedSources exports snapshot OrdMap.empty) views allocated)
    {first second : ExportView} (left : first ∈ views) (right : second ∈ views)
    {long short : IpNet} (hasLong : first.source = some long) (hasShort : second.source = some short)
    (inLong : long.contains src = true) (inShort : short.contains src = true)
    (longer : short.prefixLen < long.prefixLen) :
    exports.rulePriority first < exports.rulePriority second := by
  cases automatic : exports.automaticSources with
  | true =>
    have default : ∀ view ∈ views, exports.rulePriority view = exports.defaultPriority view.source := by
      intro view member
      rcases resolution.added view member with explicit | ⟨source, _, _, shape⟩
      · exact valid.defaults automatic view explicit
      · rw [shape]
        rfl
    rw [default first left, default second right, UInt32.lt_iff_toNat_lt,
      toNat_defaultPriority valid, toNat_defaultPriority valid, hasLong, hasShort]
    have bound := prefixLen_le long
    simp only [Option.map_some, Option.getD_some]
    omega
  | false =>
    have explicit : ∀ view ∈ views, view ∈ exports.views := by
      intro view member
      rcases resolution.added view member with listed | ⟨source, active, _⟩
      · exact listed
      · simp [viewedSources, automatic, OrdMap.containsKey] at active
    have different : first ≠ second := by
      rintro rfl
      obtain rfl := Option.some.inj (hasLong.symm.trans hasShort)
      exact Nat.lt_irrefl _ longer
    have apart := valid.apart_of_ne (explicit first left) (explicit second right) different
    exact (apart.ordered long short hasLong hasShort
      (prefixesOverlap_of_contains inLong inShort)).1 longer

theorem view_of_supported
    (resolution : Resolution exports (viewedSources exports snapshot OrdMap.empty) views allocated)
    (member : entry ∈ entries snapshot) (supports : supported exports entry.1 = true)
    {source : IpNet} (named : entry.1.source = some source) :
    ∃ view ∈ views, view.source = some source := by
  by_cases explicit : ∃ view ∈ exports.views, view.source = some source
  · obtain ⟨view, listed, own⟩ := explicit
    exact ⟨view, resolution.explicit view listed, own⟩
  · have automatic : exports.automaticSources = true := by
      simp only [supported, named, Option.all_some, Bool.or_eq_true, List.any_eq_true,
        beq_iff_eq] at supports
      exact supports.resolve_right explicit
    refine resolution.served source ?_
    rw [viewedSources, if_pos automatic, containsKey_activeSources]
    refine ⟨Or.inl ⟨entry.1, ?_, named⟩, fun view listed own => explicit ⟨view, listed, own⟩⟩
    rcases List.mem_append.mp member with finite | held
    · obtain ⟨route, known, rfl⟩ := List.mem_map.mp finite
      exact List.mem_append_left _ (List.mem_map.mpr ⟨route, known, rfl⟩)
    · obtain ⟨key, known, rfl⟩ := List.mem_map.mp held
      exact List.mem_append_right _ known

/-- The first view a packet tries has every entry about the packet. -/
theorem matches_of_applies (valid : exports.Valid)
    (resolution : Resolution exports (viewedSources exports snapshot OrdMap.empty) views allocated)
    (supports : ∀ entry ∈ entries snapshot, supported exports entry.1 = true)
    (family : src.isIpv4 = dst.isIpv4) (listed : view ∈ views)
    (tried : view.source.all (fun source => source.contains src) = true)
    (first : ∀ other ∈ views, other.source.any (fun source => source.contains src) = true →
      view.source.isSome = true ∧ exports.rulePriority view ≤ exports.rulePriority other)
    (member : entry ∈ entries snapshot) (about : applies src dst entry.1 = true) :
    routeMatchesView view entry.1 = true := by
  obtain ⟨inside, from'⟩ := Bool.and_eq_true_iff.mp about
  cases origin : entry.1.source with
  | none =>
    cases named : view.source with
    | none => simp [routeMatchesView, origin, named]
    | some source =>
      simp only [named, Option.all_some] at tried
      simp only [routeMatchesView, origin, named, beq_iff_eq]
      rw [IpNet.family_of_contains tried, IpNet.family_of_contains inside, family]
  | some routeSource =>
    simp only [origin, Option.all_some] at from'
    obtain ⟨own, ownListed, ownSource⟩ := view_of_supported resolution member
      (supports entry member) origin
    obtain ⟨isSource, earlier⟩ := first own ownListed (by rw [ownSource]; exact from')
    obtain ⟨source, named⟩ := Option.isSome_iff_exists.mp isSource
    simp only [named, Option.all_some] at tried
    simp only [routeMatchesView, origin, named]
    refine IpNet.covers_of_contains from' tried (Nat.not_lt.mp fun longer => ?_)
    have later := priority_lt_of_longer valid resolution ownListed listed ownSource named from'
      tried longer
    exact absurd earlier (UInt32.not_le.mpr later)

end Tables

/-! ## Refinement -/

/-- The allocations that calls without held sources leave behind. -/
inductive Allocated : OrdMap IpNet UInt32 → Prop
  | none : Allocated OrdMap.empty
  | call (exports : Export) (snapshot : RouteSnapshot) {allocated : OrdMap IpNet UInt32}
      (before : Allocated allocated) :
      Allocated (sourceViewsWithRecovery exports snapshot allocated OrdMap.empty).2

theorem Allocated.injective {allocated : OrdMap IpNet UInt32} (reached : Allocated allocated) :
    Injective allocated := by
  induction reached with
  | none =>
    intro first second table found
    cases found
  | call exports snapshot before ih => exact sourceViews_injective ih

/-- Trying the source views of a packet by priority and then an ordinary table gives
the packet the most specific destination and, for it, the most specific source. -/
theorem forwarding_is_destination_first {exports : Export} (valid : exports.validate = .ok ())
    (unfiltered : ∀ view ∈ exports.views, view.filter = Policy.Filter.all)
    {snapshot : RouteSnapshot} (distinct : ((entries snapshot).map Prod.fst).Nodup)
    (canonical : ∀ entry ∈ entries snapshot, entry.1.Canonical)
    (supports : ∀ entry ∈ entries snapshot, supported exports entry.1 = true)
    {allocated : OrdMap IpNet UInt32} (reached : Allocated allocated) {views : List ExportView}
    (resolved : (sourceViewsWithRecovery exports snapshot allocated OrdMap.empty).1 = .ok views)
    {ordinary : ExportView} (listed : ordinary ∈ views) (plain : ordinary.source = none)
    {src dst : IpAddr} (family : src.isIpv4 = dst.isIpv4) {tried : List ExportView}
    (complete : tried.Perm
      (views.filter fun view => view.source.any fun source => source.contains src))
    (inOrder : tried.Pairwise fun first second =>
      exports.rulePriority first ≤ exports.rulePriority second) :
    forward (projectRoutes views snapshot) dst (tried.map ExportView.table ++ [ordinary.table]) =
      destinationFirst snapshot src dst := by
  have holds := Export.validate_ok valid
  have apart : Injective (extendAllocations allocated OrdMap.empty) := reached.injective
  have resolution := sourceViews_resolution apart resolved
  have open' : ∀ view ∈ views, view.filter = Policy.Filter.all := by
    intro view member
    rcases resolution.added view member with explicit | ⟨source, _, _, shape⟩
    · exact unfiltered view explicit
    · rw [shape]
      rfl
  have contained : ∀ view ∈ tried, view ∈ views ∧
      view.source.all (fun source => source.contains src) = true := by
    intro view member
    obtain ⟨known, some⟩ := List.mem_filter.mp (complete.subset member)
    obtain ⟨source, named, inside⟩ := (Option.any_eq_true _ _).mp some
    rw [named]
    exact ⟨known, inside⟩
  have ordinaryTried : ordinary.source.all (fun source => source.contains src) = true := by
    rw [plain]
    rfl
  -- The view that is tried first answers as the oracle does.
  have answered : ∀ view ∈ views, view.source.all (fun source => source.contains src) = true →
      (∀ other ∈ tried, view.source.isSome = true ∧
        exports.rulePriority view ≤ exports.rulePriority other) →
      (lookup (projectRoutes views snapshot) dst view.table).map (fun route =>
        (route.key, route.selected)) = destinationFirst snapshot src dst := by
    intro view member inside first
    refine lookup_eq_destinationFirst resolution holds canonical distinct family member
      (open' view member) inside fun entry known about => ?_
    exact matches_of_applies holds resolution supports family member inside
      (fun other known some => first other (complete.mem_iff.mpr (List.mem_filter.mpr ⟨known, some⟩)))
      known about
  cases tried with
  | nil =>
    have ends := answered ordinary listed ordinaryTried (by simp)
    rw [forward, ← ends]
    simp
  | cons view rest =>
    obtain ⟨member, inside⟩ := contained view List.mem_cons_self
    have isSource : view.source.isSome = true := by
      obtain ⟨_, some⟩ := List.mem_filter.mp (complete.subset List.mem_cons_self)
      obtain ⟨source, named, _⟩ := (Option.any_eq_true _ _).mp some
      rw [named]
      rfl
    have first := answered view member inside (by
      intro other later
      refine ⟨isSource, ?_⟩
      rcases List.mem_cons.mp later with rfl | rest
      · exact UInt32.le_refl _
      · exact (List.pairwise_cons.mp inOrder).1 other rest)
    cases answer : destinationFirst snapshot src dst with
    | none =>
      have silent : ∀ table ∈ (view :: rest).map ExportView.table ++ [ordinary.table],
          lookup (projectRoutes views snapshot) dst table = none := by
        intro table among
        rcases List.mem_append.mp among with source | last
        · obtain ⟨other, inTried, rfl⟩ := List.mem_map.mp source
          obtain ⟨known, contains⟩ := contained other inTried
          exact lookup_eq_none resolution holds canonical family known contains answer
        · rw [List.mem_singleton.mp last]
          exact lookup_eq_none resolution holds canonical family listed ordinaryTried answer
      rw [forward, List.findSome?_eq_none_iff.mpr silent]
      rfl
    | some best =>
      rw [answer] at first
      obtain ⟨route, found, same⟩ := Option.map_eq_some_iff.mp first
      rw [forward, List.map_cons, List.cons_append, List.findSome?_cons, found]
      exact congrArg some same

/-! ## The test fixture

The export and the routes of `linux/tests.rs`. -/

namespace Fixture

def selected (destination : IpNet) (source : Option IpNet) (metric : UInt16) : SelectedRoute where
  key := ⟨destination, source⟩
  routerId := ⟨1, by decide, by decide⟩
  seqno := 1
  metric := metric
  nextHop := .v6 0xfe800000000000000000000000000001
  interface := ⟨[119, 103, 48]⟩

def automaticExport : Export where
  protocol := 203
  deviceOnly := false
  manageRules := true
  automatic := true
  sourceTableBase := 1000000
  sourceRulePriority := 10000
  views := [ExportView.plain 201 none]

/-- `10.0.0.0/8` and, inside it, `10.1.0.0/16`. -/
def parent : IpNet := .v4 0x0a000000 8

def child : IpNet := .v4 0x0a010000 16

/-- The parent reaches `192.0.2.0/24`, the child has a default route and a withdrawn
`192.0.2.128/25`. -/
def nested : RouteSnapshot where
  generation := 1
  routes := [selected (.v4 0xc0000200 24) (some parent) 500, selected (.v4 0 0) (some child) 100]
  unreachable := [⟨.v4 0xc0000280 25, some child⟩]

/-- A packet of the child to the parent's destination takes the inherited route; its
own default route is less specific. -/
theorem inherited_route_is_destination_first :
    forward (projectRoutes [ExportView.plain 201 none, ExportView.plain 1000000 (some parent),
        ExportView.plain 1000001 (some child)] nested) (.v4 0xc0000201) [1000001, 1000000, 201] =
      destinationFirst nested (.v4 0x0a010001) (.v4 0xc0000201) ∧
    destinationFirst nested (.v4 0x0a010001) (.v4 0xc0000201) =
      some (⟨.v4 0xc0000200 24, some parent⟩,
        some (selected (.v4 0xc0000200 24) (some parent) 500)) := by
  have valid : automaticExport.validate = .ok () := by decide +kernel
  have unfiltered : ∀ view ∈ automaticExport.views, view.filter = Policy.Filter.all := by
    decide +kernel
  have distinct : ((entries nested).map Prod.fst).Nodup := by decide +kernel
  have canonical : ∀ entry ∈ entries nested, entry.1.Canonical := by decide +kernel
  have supports : ∀ entry ∈ entries nested, supported automaticExport entry.1 = true := by
    decide +kernel
  have resolved : (sourceViewsWithRecovery automaticExport nested OrdMap.empty OrdMap.empty).1 =
      .ok [ExportView.plain 201 none, ExportView.plain 1000000 (some parent),
        ExportView.plain 1000001 (some child)] := by decide +kernel
  have complete : [ExportView.plain 1000001 (some child), ExportView.plain 1000000 (some parent)].Perm
      ([ExportView.plain 201 none, ExportView.plain 1000000 (some parent),
        ExportView.plain 1000001 (some child)].filter fun view =>
          view.source.any fun source => source.contains (.v4 0x0a010001)) := by decide +kernel
  have inOrder : [ExportView.plain 1000001 (some child), ExportView.plain 1000000 (some parent)].Pairwise
      fun first second => automaticExport.rulePriority first ≤ automaticExport.rulePriority second := by
    decide +kernel
  have family : (IpAddr.v4 0x0a010001).isIpv4 = (IpAddr.v4 0xc0000201).isIpv4 := rfl
  exact ⟨forwarding_is_destination_first valid unfiltered distinct canonical supports .none resolved
    List.mem_cons_self rfl family complete inOrder, by decide +kernel⟩

end Fixture

end Linux

end BabelRs
