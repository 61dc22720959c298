import BabelRs.Lib.Interrupt
import BabelRs.Linux.Convergence

/-!
# Source rules and the contents of their tables

One process, from its start: at every instant of every attempt, what does the table of
a source rule hold?  An attempt passes through three kinds of moments: it removes rules,
then it changes routes while every rule left is one it wants, then it adds rules while
every route left is one it wants or keeps.  With the allocations apart from each other,
a table is never under a rule of one source while it holds routes of another, except for
routes that `begin_recovery` takes over from a table whose rule it does not know.
-/

set_option autoImplicit false

namespace BabelRs.Linux

open Lib

/-! ## The moments of an attempt -/

/-- What holds of the kernel `now` at some instant of an attempt that found `kernel`. -/
inductive Moment (exporter : Exporter) (attempt : Attempt) (views : List ExportView)
    (messages : List KernelRoute) (kernel now : Kernel) : Prop
  | retiring (routes : now.routes = kernel.routes) (rules : ∀ rule ∈ now.rules, rule ∈ kernel.rules)
  | filling (routes : ∀ route ∈ now.routes, route ∈ kernel.routes ∨ route ∈ messages)
      (rules : ∀ rule ∈ now.rules, rule ∈ kernel.rules)
      (wanted : ∀ rule ∈ now.ownedRules exporter.exports.protocol,
        ∃ identity ∈ desiredRules exporter.exports views attempt.retainRules,
          ruleIdentity rule = some identity)
  | activating
      (routes : ∀ route ∈ now.ownedRoutes exporter.exports.protocol,
        routeIdentity route ∈ messages.map routeIdentity ∨
          exporter.recovery.keep (routeIdentity route) (confirmedBy messages) attempt.now = true)
      (wanted : ∀ rule ∈ now.ownedRules exporter.exports.protocol,
        ∃ identity ∈ desiredRules exporter.exports views attempt.retainRules,
          ruleIdentity rule = some identity)

section Moments
variable {exporter : Exporter} {attempt : Attempt} {kernel : Kernel} {views : List ExportView}
  {messages : List KernelRoute}

variable (exporter attempt kernel views) in
theorem during_staleRuleOps :
    During NetlinkOp.run
      (fun now => now.routes = kernel.routes ∧ ∀ rule ∈ now.rules, rule ∈ kernel.rules) kernel
      (staleRuleOps exporter.exports views attempt.retainRules kernel) := by
  refine during_of_kept ⟨rfl, fun _ => id⟩ fun op member now => ?_
  obtain ⟨rule, -, rfl⟩ := List.mem_map.mp member
  exact And.imp_right fun rules old listed => rules old (List.mem_of_mem_filter listed)

variable (exporter attempt kernel messages) in
theorem during_routeOps (dumped : Kernel) :
    During NetlinkOp.run
      (fun now => now.rules = kernel.rules ∧
        ∀ route ∈ now.routes, route ∈ kernel.routes ∨ route ∈ messages) kernel
      (routeOps exporter.exports messages exporter.recovery attempt.now dumped) := by
  refine during_of_kept ⟨rfl, fun _ => Or.inl⟩ fun op member now => ?_
  rcases List.mem_append.mp member with installed | removed
  · obtain ⟨message, missing, rfl⟩ := List.mem_map.mp installed
    refine And.imp_right fun routes route listed => ?_
    rcases List.mem_append.mp listed with old | new
    · exact routes route (List.mem_of_mem_filter old)
    · rw [List.mem_singleton.mp new]
      exact Or.inr (mem_missingRoutes.mp missing).1
  · obtain ⟨old, -, rfl⟩ := List.mem_map.mp removed
    exact And.imp_right fun routes route listed => routes route (List.mem_of_mem_filter listed)

theorem during_ruleOps {desired : List RuleIdentity}
    (desiredEq : desired = desiredRules exporter.exports views attempt.retainRules)
    (wanted : ∀ rule ∈ kernel.ownedRules exporter.exports.protocol,
      ∃ identity ∈ desired, ruleIdentity rule = some identity) (dumped : Kernel) :
    During NetlinkOp.run
      (fun now => now.routes = kernel.routes ∧
        ∀ rule ∈ now.ownedRules exporter.exports.protocol,
          ∃ identity ∈ desired, ruleIdentity rule = some identity) kernel
      (ruleOps attempt.order exporter.exports views attempt.retainRules dumped) := by
  refine during_of_kept ⟨rfl, wanted⟩ fun op member now => ?_
  rcases List.mem_append.mp member with added | removed
  · obtain ⟨identity, missing, rfl⟩ := List.mem_map.mp added
    refine And.imp_right fun rules rule listed => ?_
    obtain ⟨inside, owned⟩ := mem_ownedRules.mp listed
    rcases List.mem_append.mp inside with old | new
    · exact rules rule (mem_ownedRules.mpr ⟨old, owned⟩)
    · rw [List.mem_singleton.mp new]
      rw [attempt.order.mem_iter] at missing
      exact ⟨identity, desiredEq ▸ (mem_missingRules.mp missing).1, rfl⟩
  · obtain ⟨old, -, rfl⟩ := List.mem_map.mp removed
    refine And.imp_right fun rules rule listed => ?_
    obtain ⟨inside, owned⟩ := mem_ownedRules.mp listed
    exact rules rule (mem_ownedRules.mpr ⟨List.mem_of_mem_filter inside, owned⟩)

theorem ownedRules_mono {now : Kernel} (rules : ∀ rule ∈ now.rules, rule ∈ kernel.rules)
    {protocol : UInt8} {rule : KernelRule} (owned : rule ∈ now.ownedRules protocol) :
    rule ∈ kernel.ownedRules protocol := by
  rw [mem_ownedRules] at owned ⊢
  exact owned.imp_left (rules rule)

theorem ownedRoutes_eq {now : Kernel} (routes : now.routes = kernel.routes) (protocol : UInt8) :
    now.ownedRoutes protocol = kernel.ownedRoutes protocol := by
  rw [Kernel.ownedRoutes, Kernel.ownedRoutes, routes]

theorem during_attempt :
    During NetlinkOp.run (Moment exporter attempt views messages kernel) kernel
      (attemptOps exporter attempt views messages kernel) := by
  set desired := desiredRules exporter.exports views attempt.retainRules with desiredEq
  set early := kernel.runAll (staleRuleOps exporter.exports views attempt.retainRules kernel)
    with earlyEq
  have retired := during_staleRuleOps exporter attempt kernel views
  obtain ⟨sameRoutes, fewer⟩ : early.routes = kernel.routes ∧
      ∀ rule ∈ early.rules, rule ∈ kernel.rules := retired _ List.prefix_rfl
  have wanted : ∀ rule ∈ early.ownedRules exporter.exports.protocol,
      ∃ identity ∈ desired, ruleIdentity rule = some identity := by
    intro rule owned
    by_contra none
    obtain ⟨inside, protocol⟩ := mem_ownedRules.mp owned
    rw [earlyEq, staleRuleOps, rules_runAll_deleteRules, List.mem_filter] at inside
    have stale : rule ∈ staleRules exporter.exports views attempt.retainRules kernel :=
      mem_staleRules.mpr ⟨mem_ownedRules.mpr ⟨inside.1, protocol⟩,
        fun identity member named => none ⟨identity, member, named⟩⟩
    simp [stale] at inside
  have filled := during_routeOps exporter attempt early messages kernel
  set late := early.runAll (routeOps exporter.exports messages exporter.recovery attempt.now kernel)
    with lateEq
  have lateWanted : ∀ now : Kernel, now.rules = early.rules →
      ∀ rule ∈ now.ownedRules exporter.exports.protocol,
        ∃ identity ∈ desired, ruleIdentity rule = some identity :=
    fun now same rule owned => wanted rule (ownedRules_mono (by simp [same]) owned)
  -- Behind the removals every owned route is wanted or kept.
  have settled : ∀ route ∈ late.ownedRoutes exporter.exports.protocol,
      routeIdentity route ∈ messages.map routeIdentity ∨
        exporter.recovery.keep (routeIdentity route) (confirmedBy messages) attempt.now = true := by
    intro route owned
    obtain ⟨inside, protocol⟩ := mem_ownedRoutes.mp owned
    by_cases message : routeIdentity route ∈ messages.map routeIdentity
    · exact Or.inl message
    · right
      by_contra dropped
      have before : route ∈ kernel.routes := by
        rcases (filled _ List.prefix_rfl).2 route inside with old | new
        · exact sameRoutes ▸ old
        · exact absurd (List.mem_map_of_mem new) message
      rw [lateEq, routeOps, runAll_append, routes_runAll_deleteRoutes, List.mem_filter] at inside
      have stale : route ∈ staleRoutes exporter.exports messages exporter.recovery attempt.now kernel :=
        mem_staleRoutes.mpr ⟨mem_ownedRoutes.mpr ⟨before, protocol⟩, message,
          Bool.eq_false_iff.mpr dropped⟩
      simp [stale] at inside
  refine (retired.mono fun now moment => .retiring moment.1 moment.2).append
    ((filled.mono fun now moment => ?_).append
      ((during_ruleOps desiredEq (lateWanted late (filled _ List.prefix_rfl).1) early).mono
        fun now moment => ?_))
  · refine .filling (fun route member => ?_) (fun rule member => ?_) (lateWanted now moment.1)
    · exact (moment.2 route member).imp_left fun old => sameRoutes ▸ old
    · exact fewer rule (moment.1 ▸ member)
  · exact .activating (ownedRoutes_eq moment.1 _ ▸ settled) moment.2

/-- The first operations of an attempt leave the kernel in one of its moments, or the
attempt fails before it changes routes. -/
theorem applyLocked_moment (issued : Nat) :
    ((kernel.runAll ((applyLocked exporter attempt kernel).1.take issued)).routes = kernel.routes ∧
        ∀ rule ∈ (kernel.runAll ((applyLocked exporter attempt kernel).1.take issued)).rules,
          rule ∈ kernel.rules) ∨
      ∃ views messages, (resolvedViews exporter attempt).1 = .ok views ∧
        routeMessages exporter.exports attempt.interfaceIndex (projectRoutes views attempt.snapshot) =
          .ok messages ∧
        Moment exporter attempt views messages kernel
          (kernel.runAll ((applyLocked exporter attempt kernel).1.take issued)) := by
  unfold applyLocked
  cases resolved : (resolvedViews exporter attempt).1 with
  | error failure => exact Or.inl ⟨by simp [Kernel.runAll], by simp [Kernel.runAll]⟩
  | ok views =>
    cases built : routeMessages exporter.exports attempt.interfaceIndex
        (projectRoutes views attempt.snapshot) with
    | error failure =>
      simp only [built, removeStaleRules_eq]
      exact Or.inl (during_staleRuleOps exporter attempt kernel views _ (List.take_prefix _ _))
    | ok messages =>
      simp only [built, applyViews_eq]
      exact Or.inr ⟨views, messages, rfl, built, during_attempt _ (List.take_prefix _ _)⟩

end Moments

/-! ## One process -/

abbrev Past := List (Exporter × Attempt)

/-- An explicit view that shares its table with the source's view of the other family. -/
def SharesTable (exports : Export) (view : ExportView) (source : IpNet) : Prop :=
  view ∈ exports.views ∧ ∃ own ∈ exports.views, own.source = some source ∧
    own.table = view.table ∧ ∃ other, view.source = some other ∧ other.isIpv4 ≠ source.isIpv4

/-- The route was projected into the table for a view of the source, or for one that
shares the table. -/
def ProjectedFor (past : Past) (source : IpNet) (table : UInt32) (identity : RouteIdentity) : Prop :=
  ∃ made ∈ past, ∃ views, (resolvedViews made.1 made.2).1 = .ok views ∧
    ∃ view ∈ views, view.table = table ∧
      (view.source = some source ∨ SharesTable made.1.exports view source) ∧
      ∃ route ∈ projectRoutes views made.2.snapshot, route ∈ viewOffers made.2.snapshot view ∧
        ∃ message, routeMessage made.1.exports made.2.interfaceIndex route = .ok message ∧
          routeIdentity message = identity

/-- The route was in the table at the start, and a rule of the source for it was
recovered. -/
def RecoveredWith (start : World) (source : IpNet) (table : UInt32) (identity : RouteIdentity) :
    Prop :=
  identity ∈ (start.kernel.ownedRoutes start.exporter.exports.protocol).map routeIdentity ∧
    identity.table = table ∧
    ∃ rule ∈ start.exporter.recovery.rules, rule.source = source ∧ rule.table = table

/-- A process starts without owned state, or with what `begin_recovery` has adopted. -/
inductive ProcessStart (host : Host) : World → Prop
  | clean {kernel : Kernel} {file : Journal} {exports : Export} (valid : exports.validate = .ok ())
      (routes : kernel.ownedRoutes exports.protocol = [])
      (rules : kernel.ownedRules exports.protocol = []) :
      ProcessStart host ⟨kernel, file, Exporter.idle exports⟩
  | recovering {world : World} {config : Config} {indices : List UInt32} {now : UInt64}
      (valid : config.exports.validate = .ok ())
      (routes : ∀ route ∈ world.kernel.ownedRoutes config.exports.protocol,
        ∃ entry ∈ (world.start host config indices now).exporter.recovery.journal.pending,
          entry.route = routeIdentity route)
      (rules : ∀ rule ∈ world.kernel.ownedRules config.exports.protocol,
        ∃ identity ∈ (world.start host config indices now).exporter.recovery.rules,
          ruleIdentity rule = some identity)
      (distinct : (world.start host config indices now).exporter.recovery.rules.Pairwise
        fun first second => first.source ≠ second.source ∧ first.table ≠ second.table) :
      ProcessStart host (world.start host config indices now)

/-- The clock does not go back, exports are validated and of one protocol, and nobody
else touches what the process owns. -/
def Admitted (protocol : UInt8) (state : World × Past) : DaemonEvent → Prop
  | .start _ _ _ => False
  | .attempt attempt _ _ _ => ∀ made ∈ state.2, made.2.now ≤ attempt.now
  | .interfaces _ _ _ => True
  | .update exports => exports.validate = .ok () ∧ exports.protocol = protocol
  | .revoke => True
  | .outside kernel => kernel.ownedRoutes protocol = state.1.kernel.ownedRoutes protocol ∧
      kernel.ownedRules protocol = state.1.kernel.ownedRules protocol

def made (exporter : Exporter) : DaemonEvent → Past
  | .attempt attempt _ _ _ => [(exporter, attempt)]
  | _ => []

abbrev ProcessRun (host : Host) (start : World) :
    List (DaemonEvent × List Unit) → World × Past → Prop :=
  Run (fun state => state = (start, [])) fun state event _ after =>
    Admitted start.exporter.exports.protocol state event ∧
      after = (state.1.step host event, state.2 ++ made state.1.exporter event)

/-- Where rules are managed, recovery knows the source of what it takes over.  A table with a
route that is not rejected has the rules of all its explicit source views, and a rule for a
table outside the explicit ones is of a source without an explicit view. -/
structure Attributable (start : World) : Prop where
  explicit : start.exporter.exports.manageRules = true →
    ∀ entry ∈ start.exporter.recovery.journal.pending, entry.deadlineMs ≠ 0 →
      ∀ view ∈ start.exporter.exports.views, view.table = entry.route.table →
        ∀ source, view.source = some source → ∃ rule ∈ start.exporter.recovery.rules,
          rule.source = source ∧ rule.table = view.table
  automatic : start.exporter.exports.manageRules = true → ∀ rule ∈ start.exporter.recovery.rules,
    (∀ view ∈ start.exporter.exports.views, view.table ≠ rule.table) →
      ∀ view ∈ start.exporter.exports.views, view.source ≠ some rule.source

/-! ### The start -/

structure Started (start : World) : Prop where
  valid : start.exporter.exports.Valid
  recovered : Recovered start.exporter
  unallocated : start.exporter.allocated = OrdMap.empty
  rules : ∀ rule ∈ start.kernel.ownedRules start.exporter.exports.protocol,
    ∃ identity ∈ start.exporter.recovery.rules, ruleIdentity rule = some identity
  distinct : start.exporter.recovery.rules.Pairwise fun first second =>
    first.source ≠ second.source ∧ first.table ≠ second.table
  adopted : ∀ entry ∈ start.exporter.recovery.journal.pending,
    entry.route ∈ (start.kernel.ownedRoutes start.exporter.exports.protocol).map routeIdentity
  covered : ∀ entry ∈ start.exporter.recovery.journal.pending, entry.deadlineMs ≠ 0 →
    (∃ view ∈ start.exporter.exports.views, view.table = entry.route.table) ∨
      ∃ rule ∈ start.exporter.recovery.rules, rule.table = entry.route.table

/-- A journalled route is installed; one that is not rejected is in a table of an
explicit view or of a recovered rule. -/
theorem begin_pending {host : Host} {config : Config} {indices : List UInt32} {now : UInt64}
    {kernel : Kernel} {previous : Journal} {entry : PendingRoute}
    (member : entry ∈ (beginRecovery host config indices now kernel previous).journal.pending) :
    entry.route ∈ (kernel.ownedRoutes config.exports.protocol).map routeIdentity ∧
      (entry.deadlineMs ≠ 0 → (∃ view ∈ config.exports.views, view.table = entry.route.table) ∨
        ∃ rule ∈ (beginRecovery host config indices now kernel previous).rules,
          rule.table = entry.route.table) := by
  simp only [beginRecovery, Recovery.load, List.mem_map] at member
  obtain ⟨route, listed, rfl⟩ := member
  obtain ⟨dumped, checked⟩ := List.mem_filter.mp listed
  refine ⟨?_, fun accepted => ?_⟩
  · obtain ⟨entry, installed, rfl⟩ := List.mem_map.mp dumped
    exact List.mem_map_of_mem (List.mem_of_mem_filter installed)
  · have unchanged : previous.scopeChanged config = false := by
      by_contra changed
      have rejected : previous.freshDeadline config now = 0 := by
        simp [Journal.freshDeadline, Bool.eq_true_of_not_eq_false changed]
      rw [rejected] at accepted
      exact accepted (UInt64.le_zero_iff.mp Std.min_le_right)
    simp only [eligibleRoute, Bool.and_eq_true, Bool.or_eq_true, List.any_eq_true, beq_iff_eq]
      at checked
    simpa [beginRecovery, Recovery.load, unchanged] using checked.2

theorem ProcessStart.started {host : Host} {start : World} (starts : ProcessStart host start) :
    Started start := by
  cases starts with
  | clean valid routes rules =>
    refine ⟨Export.validate_ok valid, idle_recovered _, rfl, ?_, List.Pairwise.nil,
      fun _ member => absurd member List.not_mem_nil, fun _ member => absurd member List.not_mem_nil⟩
    intro rule owned
    exact absurd (rules ▸ owned : rule ∈ ([] : List KernelRule)) List.not_mem_nil
  | recovering valid routes rules distinct =>
    exact ⟨Export.validate_ok valid, begin_recovered _ _ _ _ _, rfl, rules, distinct,
      fun _ member => (begin_pending member).1, fun _ member => (begin_pending member).2⟩

/-! ### Held tables -/

section Held
variable {recovery : Recovery} {exports : Export} {now : UInt64}
  (distinct : recovery.rules.Pairwise fun first second =>
    first.source ≠ second.source ∧ first.table ≠ second.table)
include distinct

theorem apart_of_ne {rule other : RuleIdentity} (listed : rule ∈ recovery.rules)
    (otherListed : other ∈ recovery.rules) (different : rule ≠ other) :
    rule.source ≠ other.source ∧ rule.table ≠ other.table := by
  have : Std.Symm fun first second : RuleIdentity =>
      first.source ≠ second.source ∧ first.table ≠ second.table :=
    ⟨fun _ _ different => ⟨different.1.symm, different.2.symm⟩⟩
  exact distinct.forall listed otherListed different

/-- With distinct recovered tables no two sources are held in one. -/
theorem sources_injective :
    Injective (recovery.sources now exports) := by
  intro first second table left right
  obtain ⟨rule, holds, rfl, sameTable⟩ := holds_of_get? left
  obtain ⟨other, otherHolds, rfl, otherTable⟩ := holds_of_get? right
  by_contra different
  have apart := apart_of_ne distinct holds.2.1 otherHolds.2.1 fun equal => different (equal ▸ rfl)
  exact apart.2 (sameTable.trans otherTable.symm)

/-- With distinct recovered sources a rule that holds decides the table of its source. -/
theorem get?_of_holds {rule : RuleIdentity} (holds : recovery.holds exports now rule) :
    (recovery.sources now exports).get? rule.source = some rule.table := by
  obtain ⟨table, found⟩ := OrdMap.containsKey_iff.mp (containsKey_sources.mpr ⟨rule, holds, rfl⟩)
  obtain ⟨other, otherHolds, sameSource, rfl⟩ := holds_of_get? found
  by_cases equal : other = rule
  · rw [found, equal]
  · exact absurd sameSource (apart_of_ne distinct otherHolds.2.1 holds.2.1 equal).1

end Held

/-! ### The invariant -/

/-- Every owned rule has an identity, and the routes in its table are its source's. -/
def Attributed (start : World) (past : Past) (kernel : Kernel) : Prop :=
  ∀ rule ∈ kernel.ownedRules start.exporter.exports.protocol, ∃ identity,
    ruleIdentity rule = some identity ∧
      ∀ route ∈ kernel.ownedRoutes start.exporter.exports.protocol, route.table = identity.table →
        ProjectedFor past identity.source identity.table (routeIdentity route) ∨
          RecoveredWith start identity.source identity.table (routeIdentity route)

structure KeepsApart (start : World) (state : World × Past) : Prop where
  valid : state.1.exporter.exports.Valid
  protocol : state.1.exporter.exports.protocol = start.exporter.exports.protocol
  recovered : Recovered state.1.exporter
  fades : Fades state.1.exporter.recovery start.exporter.recovery
  current : state.1.exporter.recovery.revoked = false →
    state.1.exporter.exports = start.exporter.exports
  distinct : Injective state.1.exporter.allocated
  -- Before the first attempt nothing is allocated; behind it, all that is still held.
  holding : state.1.exporter.allocated = OrdMap.empty ∨
    ∀ now, (∀ made ∈ state.2, made.2.now ≤ now) → ∀ source table,
      (state.1.exporter.recovery.sources now state.1.exporter.exports).get? source = some table →
        state.1.exporter.allocated.get? source = some table
  tables : Attributed start state.2 state.1.kernel

variable {source : IpNet}

theorem ProjectedFor.mono {past more : Past} {table : UInt32} {identity : RouteIdentity}
    (projected : ProjectedFor past source table identity) :
    ProjectedFor (past ++ more) source table identity := by
  obtain ⟨made, member, rest⟩ := projected
  exact ⟨made, List.mem_append_left _ member, rest⟩

theorem Attributed.mono {start : World} {past more : Past} {kernel now : Kernel}
    (attributed : Attributed start past kernel)
    (routes : now.routes = kernel.routes) (rules : ∀ rule ∈ now.rules, rule ∈ kernel.rules) :
    Attributed start (past ++ more) now := by
  intro rule owned
  obtain ⟨identity, named, inside⟩ := attributed rule (ownedRules_mono rules owned)
  rw [ownedRoutes_eq routes]
  exact ⟨identity, named, fun route routed same =>
    (inside route routed same).imp_left ProjectedFor.mono⟩

section Step
variable {start : World} {state : World × Past} {attempt : Attempt} (started : Started start)
  (keeps : KeepsApart start state) (ordered : ∀ made ∈ state.2, made.2.now ≤ attempt.now)
include started keeps ordered

theorem KeepsApart.extended :
    Injective (extendAllocations state.1.exporter.allocated
      (heldSources state.1.exporter attempt)) := by
  have held : Injective (heldSources state.1.exporter attempt) :=
    sources_injective (keeps.fades.rules ▸ started.distinct)
  rcases keeps.holding with empty | holding
  · intro first second table left right
    rw [empty, extendAllocations, OrdMap.get?_foldl_entries, OrdMap.get?_empty, Option.or_none]
      at left right
    exact held first second table left right
  · have same : extendAllocations state.1.exporter.allocated (heldSources state.1.exporter attempt) =
        state.1.exporter.allocated := by
      refine OrdMap.ext_get? fun source => ?_
      rw [extendAllocations, OrdMap.get?_foldl_entries]
      cases found : (heldSources state.1.exporter attempt).get? source with
      | none => rfl
      | some table => rw [holding attempt.now ordered source table found, Option.some_or]
    rw [same]
    exact keeps.distinct

omit started keeps ordered in
theorem table_of_viewOffers {view : ExportView} {snapshot : RouteSnapshot} {route : ProjectedRoute}
    (offered : route ∈ viewOffers snapshot view) : route.table = view.table := by
  simp only [viewOffers, List.mem_append, List.mem_flatMap, routeOffers, holdOffers,
    List.mem_ite_nil_right, List.mem_singleton] at offered
  rcases offered with ⟨_, _, _, rfl⟩ | ⟨_, _, _, rfl⟩ <;> rfl

variable {views : List ExportView} {messages : List KernelRoute}
  (resolved : (resolvedViews state.1.exporter attempt).1 = .ok views)
include resolved

theorem projected_of_message
    (built : routeMessages state.1.exporter.exports attempt.interfaceIndex
      (projectRoutes views attempt.snapshot) = .ok messages) {own : ExportView}
    (listed : own ∈ views) (named : own.source = some source) {message : KernelRoute}
    (member : message ∈ messages) (inside : message.table = own.table) :
    ProjectedFor (state.2 ++ [(state.1.exporter, attempt)]) source own.table
      (routeIdentity message) := by
  have resolution := sourceViews_resolution (keeps.extended started ordered) resolved
  obtain ⟨route, projected, made⟩ := (mem_routeMessages built).mp member
  obtain ⟨view, viewListed, offered⟩ := List.mem_flatMap.mp (offered_of_projected projected)
  have sameTable : view.table = own.table := by
    rw [← table_of_viewOffers offered, ← inside]
    exact (congrArg Place.table (routeMessage_carries made).place).symm
  refine ⟨_, List.mem_append_right _ (List.mem_singleton.mpr rfl), views, resolved, view, viewListed,
    sameTable, ?_, route, projected, offered, message, made, rfl⟩
  by_cases equal : view = own
  · exact Or.inl (equal ▸ named)
  · obtain ⟨explicit, ownExplicit⟩ :=
      (resolution.shared_explicit viewListed listed sameTable).resolve_left equal
    obtain ⟨other, mine, hasOther, hasMine, families⟩ :=
      keeps.valid.families_of_ne explicit ownExplicit equal sameTable
    obtain rfl := Option.some.inj (named.symm.trans hasMine)
    exact Or.inr ⟨explicit, own, ownExplicit, named, sameTable.symm, other, hasOther, families⟩

/-- A route that recovery keeps in the table of a source view was recovered together with
the source's rule: the table is an explicit one, or it is held for its recovered source. -/
theorem recovered_of_kept (attributable : Attributable start) {own : ExportView}
    (listed : own ∈ views) (named : own.source = some source) {identity : RouteIdentity}
    {confirmed : List TableKey} (managed : state.1.exporter.exports.manageRules = true)
    (inside : identity.table = own.table)
    (kept : state.1.exporter.recovery.keep identity confirmed attempt.now = true) :
    RecoveredWith start source own.table identity := by
  obtain ⟨-, entry, member, rfl, alive⟩ := keep_iff.mp kept
  obtain ⟨old, before, same, aliveBefore⟩ := keeps.fades.live member alive (UInt64.le_refl _)
  obtain ⟨active, later⟩ := live_iff.mp aliveBefore
  have exportsEq := keeps.current (live_iff.mp alive).1
  rw [exportsEq] at managed
  have accepted : old.deadlineMs ≠ 0 := fun zero => UInt64.not_lt_zero (zero ▸ later)
  refine ⟨same ▸ started.adopted old before, inside, ?_⟩
  have resolution := sourceViews_resolution (keeps.extended started ordered) resolved
  by_cases taken : ∃ view ∈ start.exporter.exports.views, view.table = own.table
  · -- An allocated table is none of the explicit ones, so the view itself is explicit.
    have explicit : own ∈ start.exporter.exports.views := by
      rcases resolution.added own listed with explicit | ⟨other, -, found, -⟩
      · exact exportsEq ▸ explicit
      · obtain ⟨view, viewListed, sameTable⟩ := taken
        refine absurd ?_ (resolution.outside other _ found).2
        rw [exportsEq]
        exact List.mem_map.mpr ⟨view, viewListed, sameTable⟩
    exact attributable.explicit managed old before accepted own explicit (by rw [same, inside])
      source named
  · have free : ∀ view ∈ start.exporter.exports.views, view.table ≠ own.table :=
      fun view viewListed sameTable => taken ⟨view, viewListed, sameTable⟩
    have uncovered : ¬ ∃ view ∈ start.exporter.exports.views, view.table = old.route.table := by
      rintro ⟨view, viewListed, sameTable⟩
      exact free view viewListed (by rw [sameTable, same, inside])
    obtain ⟨rule, ruleListed, ruleTable⟩ :=
      (started.covered old before accepted).resolve_left uncovered
    rw [same, inside] at ruleTable
    have unviewed := attributable.automatic managed rule ruleListed
      fun view viewListed => ruleTable ▸ free view viewListed
    -- The rule holds its source in the table, so the view can only be of that source.
    have automatic : state.1.exporter.exports.automaticSources = true := by
      have eligible := started.recovered.eligible active rule ruleListed
      simp only [eligibleRule, Bool.and_eq_true, Bool.or_eq_true, List.any_eq_true, beq_iff_eq]
        at eligible
      rcases eligible.2 with ⟨view, viewListed, ⟨viewNamed, -⟩, -⟩ | ⟨⟨⟨automatic, -⟩, -⟩, -⟩
      · exact absurd viewNamed (unviewed view viewListed)
      · exact exportsEq ▸ automatic
    have holds : state.1.exporter.recovery.holds state.1.exporter.exports attempt.now rule :=
      ⟨automatic, keeps.fades.rules ▸ ruleListed, exportsEq ▸ unviewed, entry, member,
        inside.trans ruleTable.symm, alive⟩
    have held := get?_of_holds (keeps.fades.rules ▸ started.distinct) holds
    have allocated : (resolvedViews state.1.exporter attempt).2.get? rule.source = some rule.table :=
      sourceViews_holds automatic held (held_outside keeps.recovered held) (exportsEq ▸ unviewed)
    rcases resolution.added own listed with explicit | ⟨other, -, found, shape⟩
    · exact absurd rfl (free own (exportsEq ▸ explicit))
    · rw [shape] at named
      obtain rfl := Option.some.inj named
      rw [ruleTable] at allocated
      exact ⟨rule, ruleListed, resolution.distinct _ _ _ allocated found, ruleTable⟩

/-- At every moment of an attempt the routes under a rule are its source's. -/
theorem attributed_moment (attributable : Attributable start)
    (built : routeMessages state.1.exporter.exports attempt.interfaceIndex
      (projectRoutes views attempt.snapshot) = .ok messages)
    {now : Kernel} (moment : Moment state.1.exporter attempt views messages state.1.kernel now) :
    Attributed start (state.2 ++ [(state.1.exporter, attempt)]) now := by
  have viewOf : ∀ identity ∈ desiredRules state.1.exporter.exports views attempt.retainRules,
      state.1.exporter.exports.manageRules = true ∧
        ∃ own ∈ views, own.source = some identity.source ∧ own.table = identity.table := by
    intro identity desired
    obtain ⟨-, managed, own, listed, source, named, rfl⟩ := mem_desiredRules.mp desired
    exact ⟨managed, own, listed, named, rfl⟩
  cases moment with
  | retiring routes rules => exact keeps.tables.mono routes rules
  | filling routes rules wanted =>
    intro rule owned
    obtain ⟨identity, named, attributed⟩ := keeps.tables rule (ownedRules_mono rules owned)
    obtain ⟨desired, member, desiredNamed⟩ := wanted rule (keeps.protocol ▸ owned)
    obtain rfl := Option.some.inj (named.symm.trans desiredNamed)
    obtain ⟨-, own, listed, ownNamed, ownTable⟩ := viewOf identity member
    refine ⟨identity, named, fun route routed sameTable => ?_⟩
    obtain ⟨installed, routeProtocol⟩ := mem_ownedRoutes.mp routed
    rcases routes route installed with old | new
    · exact (attributed route (mem_ownedRoutes.mpr ⟨old, routeProtocol⟩) sameTable).imp_left
        ProjectedFor.mono
    · left
      rw [← ownTable]
      exact projected_of_message started keeps ordered resolved built listed ownNamed new
        (sameTable.trans ownTable.symm)
  | activating routes wanted =>
    intro rule owned
    obtain ⟨identity, member, named⟩ := wanted rule (keeps.protocol ▸ owned)
    obtain ⟨managed, own, listed, ownNamed, ownTable⟩ := viewOf identity member
    refine ⟨identity, named, fun route routed sameTable => ?_⟩
    rw [← ownTable] at sameTable ⊢
    rcases routes route (keeps.protocol ▸ routed) with message | kept
    · obtain ⟨message, among, same⟩ := List.mem_map.mp message
      left
      rw [← same]
      refine projected_of_message started keeps ordered resolved built listed ownNamed among ?_
      exact (congrArg RouteIdentity.table same).trans sameTable
    · exact Or.inr (recovered_of_kept started keeps ordered resolved attributable listed ownNamed
        managed sameTable kept)

end Step

section Run
variable {host : Host} {start : World}

theorem Started.keepsApart (started : Started start) : KeepsApart start (start, []) where
  valid := started.valid
  protocol := rfl
  recovered := started.recovered
  fades := Fades.refl _
  current := fun _ => rfl
  distinct := by
    intro first second table found
    rw [started.unallocated] at found
    cases found
  holding := Or.inl started.unallocated
  tables := by
    intro rule owned
    obtain ⟨identity, member, named⟩ := started.rules rule owned
    refine ⟨identity, named, fun route routed sameTable => Or.inr ⟨List.mem_map_of_mem routed, ?_⟩⟩
    exact ⟨sameTable, identity, member, rfl, rfl⟩

variable {state : World × Past}

/-- What an attempt leaves allocated is apart and covers what is held from then on. -/
theorem KeepsApart.allocated (started : Started start) (keeps : KeepsApart start state)
    {attempt : Attempt} (ordered : ∀ made ∈ state.2, made.2.now ≤ attempt.now) {recovery : Recovery}
    (fades : Fades recovery state.1.exporter.recovery) :
    Injective (resolvedViews state.1.exporter attempt).2 ∧
      ∀ now, attempt.now ≤ now → ∀ source table,
        (recovery.sources now state.1.exporter.exports).get? source = some table →
          (resolvedViews state.1.exporter attempt).2.get? source = some table := by
  refine ⟨sourceViews_injective (keeps.extended started ordered), fun now later source table found => ?_⟩
  obtain ⟨rule, holds, rfl, rfl⟩ := holds_of_get? found
  have held := get?_of_holds (keeps.fades.rules ▸ started.distinct) (fades.holds later holds)
  exact sourceViews_holds holds.1 held (held_outside keeps.recovered held) holds.2.2.1

theorem KeepsApart.attempt (started : Started start) (attributable : Attributable start)
    (keeps : KeepsApart start state) {attempt : Attempt}
    (ordered : ∀ made ∈ state.2, made.2.now ≤ attempt.now) (host : Host) (issued : Nat)
    (finished written : Bool) :
    KeepsApart start (state.1.attempt attempt issued finished written,
      state.2 ++ [(state.1.exporter, attempt)]) := by
  have fades : Fades (state.1.step host
      (.attempt attempt issued finished written)).exporter.recovery state.1.exporter.recovery :=
    step_fades _ rfl
  have recovered : Recovered (state.1.step host
      (.attempt attempt issued finished written)).exporter := step_recovered keeps.recovered _
  rw [World.step] at fades recovered
  obtain ⟨kernel, exporter⟩ := state.1.attempt_cases attempt issued finished written
  have exports : (state.1.attempt attempt issued finished written).exporter.exports =
      state.1.exporter.exports := by
    rcases exporter with ⟨-, -, shape⟩ | ⟨_, _, _, -, shape, -⟩ <;> rw [shape]
  have allocated : (state.1.attempt attempt issued finished written).exporter.allocated =
      (resolvedViews state.1.exporter attempt).2 := by
    rcases exporter with ⟨-, -, shape⟩ | ⟨_, _, _, -, shape, -⟩ <;> rw [shape]
  obtain ⟨distinct, covers⟩ := keeps.allocated started ordered fades
  refine ⟨exports ▸ keeps.valid, (congrArg Export.protocol exports).trans keeps.protocol, recovered,
    fades.trans keeps.fades, fun current => ?_, allocated ▸ distinct, Or.inr fun now later => ?_, ?_⟩
  · rw [exports]
    exact keeps.current (fades.active current)
  · rw [exports, allocated]
    exact covers now (later _ (List.mem_append_right _ (List.mem_singleton.mpr rfl)))
  · rw [kernel]
    rcases applyLocked_moment issued with ⟨routes, rules⟩ | ⟨views, messages, resolved, built, moment⟩
    · exact keeps.tables.mono routes rules
    · exact attributed_moment started keeps ordered resolved attributable built moment

/-- The other steps leave the allocations and the kernel's owned entries as they are. -/
theorem KeepsApart.quiet (started : Started start) (keeps : KeepsApart start state) {after : World}
    (valid : after.exporter.exports.Valid)
    (protocol : after.exporter.exports.protocol = start.exporter.exports.protocol)
    (recovered : Recovered after.exporter)
    (fades : Fades after.exporter.recovery state.1.exporter.recovery)
    (exports : after.exporter.recovery.revoked = false →
      after.exporter.exports = state.1.exporter.exports)
    (allocated : after.exporter.allocated = state.1.exporter.allocated)
    (routes : after.kernel.ownedRoutes start.exporter.exports.protocol =
      state.1.kernel.ownedRoutes start.exporter.exports.protocol)
    (rules : after.kernel.ownedRules start.exporter.exports.protocol =
      state.1.kernel.ownedRules start.exporter.exports.protocol) :
    KeepsApart start (after, state.2) := by
  refine ⟨valid, protocol, recovered, fades.trans keeps.fades,
    fun current => (exports current).trans (keeps.current (fades.active current)),
    allocated ▸ keeps.distinct, ?_, ?_⟩
  · rw [allocated]
    refine keeps.holding.imp_right fun holding now later source table found => ?_
    obtain ⟨rule, holds, rfl, rfl⟩ := holds_of_get? found
    have current : after.exporter.recovery.revoked = false := by
      obtain ⟨-, -, -, entry, -, -, alive⟩ := holds
      exact (live_iff.mp alive).1
    rw [exports current] at holds
    exact holding now later _ _ (get?_of_holds (keeps.fades.rules ▸ started.distinct)
      (fades.holds (UInt64.le_refl _) holds))
  · intro rule owned
    rw [rules] at owned
    rw [routes]
    exact keeps.tables rule owned

theorem step_keepsApart (started : Started start) (attributable : Attributable start)
    (keeps : KeepsApart start state) {event : DaemonEvent}
    (admitted : Admitted start.exporter.exports.protocol state event) :
    KeepsApart start (state.1.step host event, state.2 ++ made state.1.exporter event) := by
  have recovered : Recovered (state.1.step host event).exporter := step_recovered keeps.recovered event
  have quiet : made state.1.exporter event = [] → ∀ running : event.isStart = false,
      (state.1.step host event).exporter.exports.Valid →
      (state.1.step host event).exporter.exports.protocol = start.exporter.exports.protocol →
      (state.1.step host event).exporter.allocated = state.1.exporter.allocated →
      (state.1.step host event).kernel.ownedRoutes start.exporter.exports.protocol =
        state.1.kernel.ownedRoutes start.exporter.exports.protocol →
      (state.1.step host event).kernel.ownedRules start.exporter.exports.protocol =
        state.1.kernel.ownedRules start.exporter.exports.protocol →
      KeepsApart start (state.1.step host event, state.2 ++ made state.1.exporter event) := by
    intro none running valid protocol allocated routes rules
    rw [none, List.append_nil]
    exact keeps.quiet started valid protocol recovered (step_fades event running)
      (step_exports event running) allocated routes rules
  cases event with
  | start config indices now => exact absurd admitted id
  | attempt attempt issued finished written =>
    exact keeps.attempt started attributable admitted host issued finished written
  | interfaces config indices written =>
    obtain ⟨dirty, shape⟩ := state.1.exporter_interfaces config indices written
    have kernel : (state.1.step host (.interfaces config indices written)).kernel =
        state.1.kernel := World.kernel_save _ _ _
    have exporter : (state.1.step host (.interfaces config indices written)).exporter = _ := shape
    refine quiet rfl rfl ?_ ?_ ?_ ?_ ?_
    · rw [exporter]
      exact keeps.valid
    · rw [exporter]
      exact keeps.protocol
    · rw [exporter]
    · rw [kernel]
    · rw [kernel]
  | update exports => exact quiet rfl rfl (Export.validate_ok admitted.1) admitted.2 rfl rfl rfl
  | revoke => exact quiet rfl rfl keeps.valid keeps.protocol rfl rfl rfl
  | outside kernel => exact quiet rfl rfl keeps.valid keeps.protocol rfl admitted.1 admitted.2

/-- At every instant the routes in the table of a source rule were projected for its
source, or for an explicit view that shares the table, or were recovered with the rule. -/
theorem source_rules_keep_to_their_tables (starts : ProcessStart host start)
    (attributable : Attributable start) {history : List (DaemonEvent × List Unit)} {world : World}
    {past : Past} (run : ProcessRun host start history (world, past)) {rule : KernelRule}
    (owned : rule ∈ world.kernel.ownedRules start.exporter.exports.protocol) {source : IpNet}
    (named : rule.source = some source) {route : KernelRoute}
    (routed : route ∈ world.kernel.ownedRoutes start.exporter.exports.protocol)
    (inside : route.table = rule.table) :
    ProjectedFor past source rule.table (routeIdentity route) ∨
      RecoveredWith start source rule.table (routeIdentity route) := by
  have started := starts.started
  have keeps : KeepsApart start (world, past) := by
    refine run.invariant (fun _ state => KeepsApart start state) ?_ ?_
    · rintro _ rfl
      exact started.keepsApart
    · rintro _ state event _ _ before ⟨admitted, rfl⟩
      exact step_keepsApart started attributable before admitted
  obtain ⟨identity, found, attributed⟩ := keeps.tables rule owned
  have shape : identity.source = source ∧ identity.table = rule.table := by
    unfold ruleIdentity at found
    rw [named] at found
    cases priority : rule.priority with
    | none => simp [priority] at found
    | some value =>
      simp only [priority, Option.some.injEq] at found
      rw [← found]
      exact ⟨rfl, rfl⟩
  rw [← shape.1, ← shape.2]
  exact attributed route routed (inside.trans shape.2.symm)

end Run

namespace Fixture

def explicitExport : Export :=
  { automaticExport with
    automatic := false
    views := [ExportView.plain 201 none, ExportView.plain 202 (some child)] }

/-- A process finds a route in the child's table, but no rule. -/
def adopting : World :=
  World.start host ⟨⟨[{ leftRoute with table := 202 }], []⟩, Journal.default,
    Exporter.idle explicitExport⟩ ⟨explicitExport, Policy.Filter.all, 300⟩ [7] 1000

def silence : RouteSnapshot := ⟨0, [], []⟩

theorem first_attempt (start : World) (attempt : Attempt) (issued : Nat) :
    ProcessRun host start [(.attempt attempt issued true true, [])]
      (start.attempt attempt issued true true, [(start.exporter, attempt)]) := by
  have begun : ProcessRun host start [] (start, []) := Run.start rfl
  have admitted : Admitted start.exporter.exports.protocol (start, [])
      (.attempt attempt issued true true) := fun made member => absurd member List.not_mem_nil
  exact Run.step begun ⟨admitted, rfl⟩

/-- Whoever the route in the child's table was for, the first attempt keeps it and
activates the child's rule. -/
theorem adopted_route_gets_a_rule :
    ∃ history world past, ProcessStart host adopting ∧ ProcessRun host adopting history (world, past) ∧
      world.kernel.ownedRules 203 = [⟨some 203, 202, some 10112, some child⟩] ∧
      world.kernel.ownedRoutes 203 = [{ leftRoute with table := 202 }] ∧
      ¬ (ProjectedFor past child 202 (routeIdentity { leftRoute with table := 202 }) ∨
        RecoveredWith adopting child 202 (routeIdentity { leftRoute with table := 202 })) := by
  refine ⟨[(.attempt (attempting silence 2000) 9 true true, [])],
    adopting.attempt (attempting silence 2000) 9 true true,
    [(adopting.exporter, attempting silence 2000)], ?_, ?_, by decide +kernel, by decide +kernel, ?_⟩
  · exact .recovering (by decide +kernel) (by decide +kernel) (by decide +kernel) (by decide +kernel)
  · exact first_attempt adopting (attempting silence 2000) 9
  · rintro (⟨made, member, views, resolved, -, -, -, -, route, projected, -⟩ | ⟨-, -, rule, listed, -⟩)
    · obtain rfl := List.mem_singleton.mp member
      have explicit : (resolvedViews adopting.exporter (attempting silence 2000)).1 =
          .ok explicitExport.views := by decide +kernel
      obtain rfl := Except.ok.inj (explicit.symm.trans resolved)
      cases projected
    · cases listed

/-- The route recovered with its rule, behind an attempt. -/
theorem recovered_table_keeps_its_source :
    ProjectedFor [(restarted.exporter, attempting silence 2000)] child 1000000
        (routeIdentity leftRoute) ∨
      RecoveredWith restarted child 1000000 (routeIdentity leftRoute) := by
  have starts : ProcessStart host restarted :=
    .recovering (by decide +kernel) (by decide +kernel) (by decide +kernel) (by decide +kernel)
  have attributable : Attributable restarted := by
    refine ⟨fun _ entry _ _ view member _ source named => ?_, fun _ => by decide +kernel⟩
    obtain rfl := List.mem_singleton.mp member
    cases named
  have run := first_attempt restarted (attempting silence 2000) 9
  have owned : leftRule ∈ (restarted.attempt (attempting silence 2000) 9 true true).kernel.ownedRules
      restarted.exporter.exports.protocol := by decide +kernel
  have routed : leftRoute ∈ (restarted.attempt (attempting silence 2000) 9 true
      true).kernel.ownedRoutes restarted.exporter.exports.protocol := by decide +kernel
  exact source_rules_keep_to_their_tables starts attributable run owned rfl routed rfl

end Fixture

end BabelRs.Linux
