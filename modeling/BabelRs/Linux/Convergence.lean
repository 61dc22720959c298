import BabelRs.Linux.Daemon

/-!
# Convergence of reconciliation

A successful attempt ends with exactly the projected routes, the routes that recovery
keeps and the rules of the views, whatever the kernel held before.  The next attempt
with the same inputs then has nothing to do, unless recovery has let go of a source in
between.
-/

set_option autoImplicit false

namespace BabelRs.Linux

open Lib

def Exporter.after (exporter : Exporter) (attempt : Attempt)
    (outcome : List RouteIdentity × List TableKey) : Exporter :=
  { exporter with
    allocated := (resolvedViews exporter attempt).2
    recovery := (exporter.recovery.applied outcome.1 outcome.2 attempt.now).1.saved }

/-! ## Routes -/

section Attempt
variable {exporter : Exporter} {attempt : Attempt} {kernel : Kernel} {views : List ExportView}
  {messages : List KernelRoute}

theorem places_apart
    (carries : List.Forall₂ (Carries exporter.exports) (projectRoutes views attempt.snapshot) messages) :
    messages.Pairwise fun first second => first.place ≠ second.place := by
  refine (messages_apart carries).imp fun different same => different ?_
  simp only [KernelRoute.place, Place.mk.injEq] at same
  rw [same.1, same.2.1]

/-- No message takes the place of a kept route: a finite one would confirm its
destination, and a reject route has a priority beyond every finite metric. -/
theorem keep_apart (recovered : Recovered exporter)
    (carries : List.Forall₂ (Carries exporter.exports) (projectRoutes views attempt.snapshot) messages)
    {route : KernelRoute} {now : UInt64}
    (kept : exporter.recovery.keep (routeIdentity route) (confirmedBy messages) now = true)
    {message : KernelRoute} (member : message ∈ messages) : route.place ≠ message.place := by
  intro same
  obtain ⟨unconfirmed, pending, listed, named, -⟩ := keep_iff.mp kept
  obtain ⟨projected, -, carried⟩ := carried_of_message carries member
  have places := same
  simp only [KernelRoute.place, Place.mk.injEq] at places
  cases chosen : projected.selected with
  | some selected =>
    refine unconfirmed (mem_confirmedBy.mpr ⟨message, member, ?_, ?_⟩)
    · simp [carried.kind, chosen]
    · rw [← places.1, ← places.2.1]
      rfl
  | none =>
    have bound := recovered.finite pending listed
    have priority : pending.route.priority = routePriority projected := by
      rw [named]
      exact congrArg Place.priority (same.trans carried.place)
    rw [priority, routePriority, chosen] at bound
    exact absurd bound (UInt32.lt_irrefl _)

theorem identities_attempt (recovered : Recovered exporter)
    (carries : List.Forall₂ (Carries exporter.exports) (projectRoutes views attempt.snapshot) messages)
    {identity : RouteIdentity} :
    identity ∈ ((kernel.runAll (attemptOps exporter attempt views messages kernel)).ownedRoutes
        exporter.exports.protocol).map routeIdentity ↔
      identity ∈ messages.map routeIdentity ∨
        identity ∈ (kernel.ownedRoutes exporter.exports.protocol).map routeIdentity ∧
          exporter.recovery.keep identity (confirmedBy messages) attempt.now = true := by
  have apart := places_apart carries
  simp only [List.mem_map, mem_ownedRoutes, mem_routes_attempt apart]
  constructor
  · rintro ⟨route, ⟨⟨new | ⟨old, -⟩, unstale⟩, owned⟩, rfl⟩
    · exact Or.inl ⟨route, (mem_missingRoutes.mp new).1, rfl⟩
    · by_cases desired : routeIdentity route ∈ messages.map routeIdentity
      · exact Or.inl (List.mem_map.mp desired)
      · refine Or.inr ⟨⟨route, ⟨old, owned⟩, rfl⟩, ?_⟩
        by_contra dropped
        exact unstale (mem_staleRoutes.mpr
          ⟨mem_ownedRoutes.mpr ⟨old, owned⟩, desired, Bool.eq_false_iff.mpr dropped⟩)
  · rintro (⟨message, member, rfl⟩ | ⟨⟨route, ⟨old, owned⟩, rfl⟩, kept⟩)
    · have desired : routeIdentity message ∈ messages.map routeIdentity := List.mem_map_of_mem member
      by_cases missing : message ∈ missingRoutes exporter.exports messages kernel
      · obtain ⟨projected, -, carried⟩ := carried_of_message carries member
        exact ⟨message, ⟨⟨Or.inl missing, fun stale => (mem_staleRoutes.mp stale).2.1 desired⟩,
          carried.protocol⟩, rfl⟩
      · -- An owned route has the identity already, and no other message its place.
        have present : ∃ route ∈ kernel.ownedRoutes exporter.exports.protocol,
            routeIdentity route = routeIdentity message := by
          by_contra none
          exact missing (mem_missingRoutes.mpr ⟨member, fun route owned same => none ⟨route, owned, same⟩⟩)
        obtain ⟨route, installed, same⟩ := present
        obtain ⟨old, owned⟩ := mem_ownedRoutes.mp installed
        refine ⟨route, ⟨⟨Or.inr ⟨old, ?_⟩, ?_⟩, owned⟩, same⟩
        · intro other otherMissing samePlace
          have places : message.place = other.place := by
            rw [← samePlace, ← place_routeIdentity, ← place_routeIdentity, same]
          have : Std.Symm fun first second : KernelRoute => first.place ≠ second.place :=
            ⟨fun _ _ different equal => different equal.symm⟩
          by_cases equal : message = other
          · exact missing (equal ▸ otherMissing)
          · exact apart.forall member (mem_missingRoutes.mp otherMissing).1 equal places
        · intro stale
          exact (mem_staleRoutes.mp stale).2.1 (same ▸ desired)
    · refine ⟨route, ⟨⟨Or.inr ⟨old, ?_⟩, ?_⟩, owned⟩, rfl⟩
      · intro message missing
        exact keep_apart recovered carries kept (mem_missingRoutes.mp missing).1
      · intro stale
        rw [(mem_staleRoutes.mp stale).2.2] at kept
        cases kept

/-! ## Rules -/

/-- The rules when an attempt is done; the removal at its start takes nothing that the
one at its end would leave. -/
theorem mem_rules_attempt {rule : KernelRule} :
    rule ∈ (kernel.runAll (attemptOps exporter attempt views messages kernel)).ownedRules
        exporter.exports.protocol ↔
      ∃ identity ∈ desiredRules exporter.exports views attempt.retainRules,
        ruleIdentity rule = some identity ∧
          (rule ∈ kernel.ownedRules exporter.exports.protocol ∨
            rule = ruleMessage exporter.exports identity ∧
              ∀ old ∈ kernel.ownedRules exporter.exports.protocol, ruleIdentity old ≠ some identity) := by
  set desired := desiredRules exporter.exports views attempt.retainRules with desiredEq
  set early := kernel.runAll (staleRuleOps exporter.exports views attempt.retainRules kernel)
    with earlyEq
  have earlyRules : ∀ old, old ∈ early.ownedRules exporter.exports.protocol ↔
      old ∈ kernel.ownedRules exporter.exports.protocol ∧
        ∃ identity ∈ desired, ruleIdentity old = some identity := by
    intro old
    rw [earlyEq, mem_ownedRules, staleRuleOps, rules_runAll_deleteRules, List.mem_filter]
    simp only [Bool.not_eq_true', List.contains_eq_mem, decide_eq_false_iff_not, mem_staleRules,
      mem_ownedRules]
    constructor
    · rintro ⟨⟨inside, unstale⟩, owned⟩
      refine ⟨⟨inside, owned⟩, ?_⟩
      by_contra none
      exact unstale ⟨⟨inside, owned⟩, fun identity member named => none ⟨identity, member, named⟩⟩
    · rintro ⟨⟨inside, owned⟩, identity, member, named⟩
      exact ⟨⟨inside, fun stale => stale.2 identity member named⟩, owned⟩
  have final : (kernel.runAll (attemptOps exporter attempt views messages kernel)).rules =
      (early.rules ++ (attempt.order.iter (missingRules exporter.exports desired early)).map
        (ruleMessage exporter.exports)).filter fun old =>
          !(unwantedRules exporter.exports desired early).contains old := by
    rw [attemptOps, runAll_append, runAll_append, ruleOps, runAll_append, rules_runAll_deleteRules,
      rules_runAll_addRules, rules_routeOps]
  rw [mem_ownedRules, final]
  simp only [List.mem_filter, List.mem_append, List.mem_map, attempt.order.mem_iter,
    Bool.not_eq_true', List.contains_eq_mem, decide_eq_false_iff_not]
  constructor
  · rintro ⟨⟨old | ⟨identity, missing, rfl⟩, -⟩, owned⟩
    · obtain ⟨installed, identity, member, named⟩ := (earlyRules rule).mp (mem_ownedRules.mpr ⟨old, owned⟩)
      exact ⟨identity, member, named, Or.inl installed⟩
    · obtain ⟨member, absent⟩ := mem_missingRules.mp missing
      refine ⟨identity, member, rfl, Or.inr ⟨rfl, fun old installed named => ?_⟩⟩
      exact absent old ((earlyRules old).mpr ⟨installed, identity, member, named⟩) named
  · rintro ⟨identity, member, named, installed | ⟨rfl, absent⟩⟩
    · have inside := mem_ownedRules.mp ((earlyRules rule).mpr ⟨installed, identity, member, named⟩)
      exact ⟨⟨Or.inl inside.1, fun unwanted => (mem_unwantedRules.mp unwanted).2 identity member named⟩,
        inside.2⟩
    · refine ⟨⟨Or.inr ⟨identity, mem_missingRules.mpr ⟨member, fun old early named => ?_⟩, rfl⟩,
        fun unwanted => (mem_unwantedRules.mp unwanted).2 identity member rfl⟩, rfl⟩
      exact absent old ((earlyRules old).mp early).1 named

theorem rule_identities_attempt {identity : Option RuleIdentity} :
    identity ∈ ((kernel.runAll (attemptOps exporter attempt views messages kernel)).ownedRules
        exporter.exports.protocol).map ruleIdentity ↔
      ∃ rule ∈ desiredRules exporter.exports views attempt.retainRules, identity = some rule := by
  simp only [List.mem_map, mem_rules_attempt]
  constructor
  · rintro ⟨rule, ⟨named, member, same, -⟩, rfl⟩
    exact ⟨named, member, same⟩
  · rintro ⟨rule, member, rfl⟩
    by_cases present : ∃ old ∈ kernel.ownedRules exporter.exports.protocol,
        ruleIdentity old = some rule
    · obtain ⟨old, installed, named⟩ := present
      exact ⟨old, ⟨rule, member, named, Or.inl installed⟩, named⟩
    · refine ⟨ruleMessage exporter.exports rule, ⟨rule, member, rfl, Or.inr ⟨rfl, ?_⟩⟩, rfl⟩
      exact fun old installed named => present ⟨old, installed, named⟩

end Attempt

/-! ## The next attempt -/

section Again
variable {exporter : Exporter} {attempt : Attempt} {kernel : Kernel} {views : List ExportView}
  {messages : List KernelRoute}

variable {outcome : List RouteIdentity × List TableKey}

/-- Recovery keeps, for the same time, what it kept before. -/
theorem keep_after {identity : RouteIdentity} (member : identity ∈ outcome.1) :
    (exporter.after attempt outcome).recovery.keep identity outcome.2 attempt.now =
      exporter.recovery.keep identity outcome.2 attempt.now := by
  rw [Bool.eq_iff_iff, keep_iff, keep_iff]
  refine and_congr_right fun unconfirmed => ?_
  constructor
  · rintro ⟨pending, listed, named, live⟩
    exact ⟨pending, (applied_pending.mp listed).1, named, live⟩
  · rintro ⟨pending, listed, rfl, live⟩
    exact ⟨pending, applied_pending.mpr ⟨listed, live, member, unconfirmed⟩, rfl, live⟩

theorem held_before {source : IpNet}
    (contained : (heldSources (exporter.after attempt outcome) attempt).containsKey source = true) :
    (heldSources exporter attempt).containsKey source = true := by
  obtain ⟨rule, ⟨automatic, listed, unviewed, pending, member, same, live⟩, rfl⟩ :=
    containsKey_sources.mp contained
  exact containsKey_sources.mpr ⟨rule, ⟨automatic, listed, unviewed, pending,
    (applied_pending.mp member).1, same, live⟩, rfl⟩

def snapshotSources (snapshot : RouteSnapshot) : List IpNet :=
  (snapshot.routes.map SelectedRoute.key ++ snapshot.unreachable).filterMap RouteKey.source

/-- Recovery still holds every source it held, or the snapshot has taken it over. -/
def HoldsOn (exporter : Exporter) (attempt : Attempt) (outcome : List RouteIdentity × List TableKey) :
    Prop :=
  ∀ source table, (heldSources exporter attempt).get? source = some table →
    (heldSources (exporter.after attempt outcome) attempt).get? source = some table ∨
      (heldSources (exporter.after attempt outcome) attempt).get? source = none ∧
        source ∈ snapshotSources attempt.snapshot

theorem activeSources_after (holdsOn : HoldsOn exporter attempt outcome) :
    activeSources exporter.exports attempt.snapshot
        (heldSources (exporter.after attempt outcome) attempt) =
      activeSources exporter.exports attempt.snapshot (heldSources exporter attempt) := by
  refine OrdMap.ext_get? fun source => ?_
  have same : (activeSources exporter.exports attempt.snapshot
        (heldSources (exporter.after attempt outcome) attempt)).containsKey source =
      (activeSources exporter.exports attempt.snapshot
        (heldSources exporter attempt)).containsKey source := by
    rw [Bool.eq_iff_iff, containsKey_activeSources, containsKey_activeSources]
    refine and_congr_left fun _ => ⟨Or.imp_right held_before, ?_⟩
    rintro (own | held)
    · exact Or.inl own
    · obtain ⟨table, found⟩ := OrdMap.containsKey_iff.mp held
      rcases holdsOn source table found with still | ⟨-, own⟩
      · exact Or.inr (OrdMap.containsKey_iff.mpr ⟨table, still⟩)
      · exact Or.inl (List.mem_filterMap.mp own)
  simp only [OrdMap.containsKey] at same
  cases here : (activeSources exporter.exports attempt.snapshot
      (heldSources (exporter.after attempt outcome) attempt)).get? source <;>
    cases there : (activeSources exporter.exports attempt.snapshot
      (heldSources exporter attempt)).get? source <;> simp_all

theorem resolvedViews_after (recovered : Recovered exporter)
    (holdsOn : HoldsOn exporter attempt outcome)
    (resolved : (resolvedViews exporter attempt).1 = .ok views) (order : HashOrder) :
    (resolvedViews (exporter.after attempt outcome) { attempt with order := order }).1 = .ok views := by
  have again := sourceViews_again resolved (fun _ _ found => held_outside recovered found)
    (fun source contained => by
      obtain ⟨rule, holds, rfl⟩ := containsKey_sources.mp contained
      exact holds.2.2.1)
    (fun source table found => by
      obtain ⟨before, held⟩ := OrdMap.containsKey_iff.mp
        (held_before (OrdMap.containsKey_iff.mpr ⟨table, found⟩))
      rcases holdsOn source before held with still | ⟨gone, -⟩
      · rw [held, ← still, found]
      · rw [found] at gone
        cases gone)
    (activeSources_after holdsOn)
  exact congrArg Prod.fst again

/-- On a kernel with the desired rules and the desired and kept routes nothing is to be
done. -/
theorem attemptOps_settled
    (routes : ∀ identity, identity ∈ (kernel.ownedRoutes exporter.exports.protocol).map routeIdentity ↔
      identity ∈ messages.map routeIdentity ∨
        identity ∈ (kernel.ownedRoutes exporter.exports.protocol).map routeIdentity ∧
          exporter.recovery.keep identity (confirmedBy messages) attempt.now = true)
    (rules : ∀ identity, identity ∈ (kernel.ownedRules exporter.exports.protocol).map ruleIdentity ↔
      ∃ rule ∈ desiredRules exporter.exports views attempt.retainRules, identity = some rule) :
    attemptOps exporter attempt views messages kernel = [] := by
  have fresh : staleRules exporter.exports views attempt.retainRules kernel = [] := by
    refine List.eq_nil_iff_forall_not_mem.mpr fun rule stale => ?_
    obtain ⟨owned, apart⟩ := mem_staleRules.mp stale
    obtain ⟨identity, desired, named⟩ := (rules _).mp (List.mem_map_of_mem owned)
    exact apart identity desired named
  have installed : missingRoutes exporter.exports messages kernel = [] := by
    refine List.eq_nil_iff_forall_not_mem.mpr fun message missing => ?_
    obtain ⟨member, absent⟩ := mem_missingRoutes.mp missing
    obtain ⟨route, owned, same⟩ :=
      List.mem_map.mp ((routes _).mpr (Or.inl (List.mem_map_of_mem member)))
    exact absent route owned same
  have wanted : staleRoutes exporter.exports messages exporter.recovery attempt.now kernel = [] := by
    refine List.eq_nil_iff_forall_not_mem.mpr fun route stale => ?_
    obtain ⟨owned, undesired, dropped⟩ := mem_staleRoutes.mp stale
    rcases (routes _).mp (List.mem_map_of_mem owned) with desired | ⟨-, kept⟩
    · exact undesired desired
    · rw [dropped] at kept
      cases kept
  have active : missingRules exporter.exports
      (desiredRules exporter.exports views attempt.retainRules) kernel = [] := by
    refine List.eq_nil_iff_forall_not_mem.mpr fun rule missing => ?_
    obtain ⟨desired, absent⟩ := mem_missingRules.mp missing
    obtain ⟨old, owned, named⟩ := List.mem_map.mp ((rules (some rule)).mpr ⟨rule, desired, rfl⟩)
    exact absent old owned named
  have clean : unwantedRules exporter.exports
      (desiredRules exporter.exports views attempt.retainRules) kernel = [] := by
    refine List.eq_nil_iff_forall_not_mem.mpr fun rule unwanted => ?_
    obtain ⟨owned, apart⟩ := mem_unwantedRules.mp unwanted
    obtain ⟨identity, desired, named⟩ := (rules _).mp (List.mem_map_of_mem owned)
    exact apart identity desired named
  have silent : staleRuleOps exporter.exports views attempt.retainRules kernel = [] := by
    rw [staleRuleOps, fresh]
    rfl
  have none : attempt.order.iter ([] : List RuleIdentity) = [] :=
    List.perm_nil.mp (attempt.order.perm [])
  rw [attemptOps, silent]
  simp only [Kernel.runAll, List.foldl_nil, routeOps, ruleOps, installed, wanted, active, clean, none,
    List.map_nil, List.append_nil]

end Again

/-- A successful attempt ends with the projected and the kept routes and with the rules
of the views; while recovery holds on to its sources, the next one issues nothing. -/
theorem reconciliation_converges {host : Host} {history : List (DaemonEvent × List Unit)}
    {world : World} (run : WorldRun host (fun _ _ => True) history world) {attempt : Attempt}
    {kernel : Kernel} {outcome : List RouteIdentity × List TableKey}
    (done : (applyLocked world.exporter attempt kernel).2 = .ok outcome) :
    ∃ views, (resolvedViews world.exporter attempt).1 = .ok views ∧
      (∀ identity, identity ∈ ((kernel.runAll (applyLocked world.exporter attempt kernel).1).ownedRoutes
            world.exporter.exports.protocol).map routeIdentity ↔
        (∃ route ∈ projectRoutes views attempt.snapshot, ∃ message,
            routeMessage world.exporter.exports attempt.interfaceIndex route = .ok message ∧
              identity = routeIdentity message) ∨
          identity ∈ (kernel.ownedRoutes world.exporter.exports.protocol).map routeIdentity ∧
            world.exporter.recovery.keep identity outcome.2 attempt.now = true) ∧
      (∀ identity, identity ∈ ((kernel.runAll (applyLocked world.exporter attempt kernel).1).ownedRules
            world.exporter.exports.protocol).map ruleIdentity ↔
        attempt.retainRules = true ∧ world.exporter.exports.manageRules = true ∧
          ∃ view ∈ views, ∃ source, view.source = some source ∧
            identity = some ⟨view.table, world.exporter.exports.rulePriority view, source⟩) ∧
      (HoldsOn world.exporter attempt outcome → ∀ order : HashOrder,
        ∃ again, applyLocked (world.exporter.after attempt outcome) { attempt with order := order }
            (kernel.runAll (applyLocked world.exporter attempt kernel).1) = ([], .ok again)) := by
  have recovered := run.recovered
  obtain ⟨views, messages, resolved, built, ops, rfl⟩ := applyLocked_ok done
  have carries := routeMessages_carries built
  rw [ops]
  set after := kernel.runAll (attemptOps world.exporter attempt views messages kernel) with afterEq
  have routes : ∀ identity, identity ∈
      (after.ownedRoutes world.exporter.exports.protocol).map routeIdentity ↔
        identity ∈ messages.map routeIdentity ∨
          identity ∈ (kernel.ownedRoutes world.exporter.exports.protocol).map routeIdentity ∧
            world.exporter.recovery.keep identity (confirmedBy messages) attempt.now = true :=
    fun identity => identities_attempt recovered carries
  have rules : ∀ identity, identity ∈
      (after.ownedRules world.exporter.exports.protocol).map ruleIdentity ↔
        ∃ rule ∈ desiredRules world.exporter.exports views attempt.retainRules, identity = some rule :=
    fun identity => rule_identities_attempt
  refine ⟨views, resolved, ?_, ?_, ?_⟩
  · intro identity
    rw [routes, List.mem_map]
    refine or_congr_left ⟨?_, ?_⟩
    · rintro ⟨message, member, rfl⟩
      obtain ⟨route, listed, made⟩ := (mem_routeMessages built).mp member
      exact ⟨route, listed, message, made, rfl⟩
    · rintro ⟨route, listed, message, made, rfl⟩
      exact ⟨message, (mem_routeMessages built).mpr ⟨route, listed, made⟩, rfl⟩
  · intro identity
    rw [rules]
    simp only [mem_desiredRules]
    constructor
    · rintro ⟨rule, ⟨retained, manages, view, listed, source, named, rfl⟩, rfl⟩
      exact ⟨retained, manages, view, listed, source, named, rfl⟩
    · rintro ⟨retained, manages, view, listed, source, named, rfl⟩
      exact ⟨_, ⟨retained, manages, view, listed, source, named, rfl⟩, rfl⟩
  · intro holdsOn order
    have views' := resolvedViews_after recovered holdsOn resolved order
    -- What is kept of the first attempt's dump is kept by the second one.
    have settled : attemptOps (world.exporter.after attempt
        ((kernel.ownedRoutes world.exporter.exports.protocol).map routeIdentity,
          confirmedBy messages)) { attempt with order := order } views messages after = [] := by
      refine attemptOps_settled (fun identity => ?_) rules
      refine (routes identity).trans (or_congr_right ?_)
      constructor
      · rintro ⟨owned, kept⟩
        exact ⟨(routes identity).mpr (Or.inr ⟨owned, kept⟩), (keep_after owned).trans kept⟩
      · rintro ⟨present, kept⟩
        obtain ⟨unconfirmed, pending, listed, named, live⟩ := keep_iff.mp kept
        obtain ⟨old, -, owned, -⟩ := applied_pending.mp listed
        rw [named] at owned
        exact ⟨owned, (keep_after owned).symm.trans kept⟩
    unfold applyLocked
    rw [views']
    simp only [Exporter.after] at settled ⊢
    simp only [built, applyViews_eq, settled]
    exact ⟨_, rfl⟩

namespace Fixture

def host : Host := ⟨"boot", "net:[1]"⟩

def restarting : Config := ⟨automaticExport, Policy.Filter.all, 300⟩

/-- A rule and a route for the child that an earlier process has left. -/
def leftRule : KernelRule := ⟨some 203, 1000000, some 10112, some child⟩

def leftRoute : KernelRoute where
  protocol := 203
  table := 1000000
  destination := .v4 0xc0000200 24
  priority := 65631
  outputInterface := 7
  gateway := some (.v6 0xfe800000000000000000000000000001)
  kind := .unicast
  linkScope := false
  onlink := true

def leftKernel : Kernel := ⟨[leftRoute], [leftRule]⟩

def restarted : World :=
  World.start host ⟨leftKernel, Journal.default, Exporter.idle automaticExport⟩ restarting [7] 1000

theorem restarted_run :
    WorldRun host (fun _ _ => True) [(.start restarting [7] 1000, [])] restarted :=
  Run.step (Run.start ⟨automaticExport, rfl⟩) ⟨trivial, rfl⟩

/-- The ordinary route confirms the child's only recovered route, so the next attempt
with the same inputs retires the child's view. -/
theorem confirmed_source_is_retired :
    WorldRun host (fun _ _ => True) [(.start restarting [7] 1000, [])] restarted ∧
      (applyLocked restarted.exporter (attempting single 2000) leftKernel).2 =
        .ok ([routeIdentity leftRoute],
          [⟨201, .v4 0xc0000200 24⟩, ⟨1000000, .v4 0xc0000200 24⟩]) ∧
      (applyLocked (restarted.exporter.after (attempting single 2000) ([routeIdentity leftRoute],
          [⟨201, .v4 0xc0000200 24⟩, ⟨1000000, .v4 0xc0000200 24⟩])) (attempting single 2000)
        (leftKernel.runAll
          (applyLocked restarted.exporter (attempting single 2000) leftKernel).1)).1 =
        [.deleteRule leftRule, .deleteRoute leftRoute] :=
  ⟨restarted_run, by decide +kernel, by decide +kernel⟩

/-- Before any route is learned, the recovered view stays as it is. -/
theorem recovered_source_stays :
    ∃ again, applyLocked (restarted.exporter.after (attempting ⟨0, [], []⟩ 2000)
          ([routeIdentity leftRoute], [])) (attempting ⟨0, [], []⟩ 2000)
        (leftKernel.runAll
          (applyLocked restarted.exporter (attempting ⟨0, [], []⟩ 2000) leftKernel).1) =
      ([], .ok again) := by
  have done : (applyLocked restarted.exporter (attempting ⟨0, [], []⟩ 2000) leftKernel).2 =
      .ok ([routeIdentity leftRoute], []) := by decide +kernel
  obtain ⟨views, -, -, -, next⟩ := reconciliation_converges restarted_run done
  refine next ?_ HashOrder.stored
  intro source table found
  left
  exact found

end Fixture

end BabelRs.Linux
