import BabelRs.Linux.Forwarding
import BabelRs.Linux.Reconcile

/-!
# One reconciliation attempt

What `apply_locked` installs and removes, as facts about its list of operations: the
messages stand for the projected routes, the route operations depend on the dumped
routes only and the rule operations on the dumped rules only.  The last part asks what
an attempt does to the entries of other protocols.
-/

set_option autoImplicit false

namespace BabelRs.Linux

open Lib

/-! ## Messages -/

def ProjectedRoute.place (route : ProjectedRoute) : Place :=
  ⟨route.table, route.key.destination, routePriority route⟩

/-- What a message has from the projected route it installs. -/
structure Carries (exports : Export) (route : ProjectedRoute) (message : KernelRoute) : Prop where
  protocol : message.protocol = exports.protocol
  place : message.place = route.place
  kind : message.kind = if route.selected.isSome then .unicast else .unreachable

variable {views : List ExportView}

section Messages
variable {exports : Export} {interfaceIndex : InterfaceName → Option UInt32}
  {routes : List ProjectedRoute} {messages : List KernelRoute}

theorem routeMessage_carries {route : ProjectedRoute} {message : KernelRoute}
    (built : routeMessage exports interfaceIndex route = .ok message) :
    Carries exports route message := by
  unfold routeMessage at built
  cases chosen : route.selected with
  | none =>
    simp only [chosen, Except.ok.injEq] at built
    subst built
    exact ⟨rfl, rfl, by simp [chosen]⟩
  | some selected =>
    cases index : interfaceIndex selected.interface with
    | none => simp [chosen, index] at built
    | some number =>
      simp only [chosen, index, Except.ok.injEq] at built
      subst built
      exact ⟨rfl, rfl, by simp [chosen]⟩

theorem routeMessages_carries (built : routeMessages exports interfaceIndex routes = .ok messages) :
    List.Forall₂ (Carries exports) routes messages := by
  induction routes generalizing messages with
  | nil =>
    obtain rfl := Except.ok.inj built
    exact List.Forall₂.nil
  | cons route rest ih =>
    simp only [routeMessages, bind, Except.bind, pure, Except.pure] at built
    cases first : routeMessage exports interfaceIndex route with
    | error failure => simp [first] at built
    | ok message =>
      cases others : routeMessages exports interfaceIndex rest with
      | error failure => simp [first, others] at built
      | ok later =>
        simp only [first, others, Except.ok.injEq] at built
        subst built
        exact List.Forall₂.cons (routeMessage_carries first) (ih others)

theorem carried_of_message (carries : List.Forall₂ (Carries exports) routes messages)
    {message : KernelRoute} (member : message ∈ messages) :
    ∃ route ∈ routes, Carries exports route message := by
  induction carries with
  | nil => cases member
  | cons here _ ih =>
    rcases List.mem_cons.mp member with rfl | later
    · exact ⟨_, List.mem_cons_self, here⟩
    · obtain ⟨route, listed, carried⟩ := ih later
      exact ⟨route, List.mem_cons_of_mem _ listed, carried⟩

theorem message_of_carried (carries : List.Forall₂ (Carries exports) routes messages)
    {route : ProjectedRoute} (member : route ∈ routes) :
    ∃ message ∈ messages, Carries exports route message := by
  induction carries with
  | nil => cases member
  | cons here _ ih =>
    rcases List.mem_cons.mp member with rfl | later
    · exact ⟨_, List.mem_cons_self, here⟩
    · obtain ⟨message, listed, carried⟩ := ih later
      exact ⟨message, List.mem_cons_of_mem _ listed, carried⟩

/-- A table has at most one projected route for a destination. -/
theorem slots_nodup (views : List ExportView) (snapshot : RouteSnapshot) :
    ((projectRoutes views snapshot).map ProjectedRoute.slot).Nodup := by
  have fills := projection_fills views snapshot
  have slots : (projectRoutes views snapshot).map ProjectedRoute.slot =
      (projection views snapshot).keys := by
    rw [projectRoutes, OrdMap.values, List.map_map, OrdMap.keys, keysOf]
    refine List.map_congr_left fun entry member => ?_
    exact (fills.offered _ _ (OrdMap.get?_eq_some_iff.mpr member)).2
  rw [slots]
  exact (projection views snapshot).ascending.distinct

/-- So the messages have different destinations in a table, and different places. -/
theorem messages_apart {snapshot : RouteSnapshot}
    (carries : List.Forall₂ (Carries exports) (projectRoutes views snapshot) messages) :
    messages.Pairwise fun first second =>
      (⟨first.table, first.destination⟩ : TableKey) ≠ ⟨second.table, second.destination⟩ := by
  have nodup := slots_nodup views snapshot
  generalize projectRoutes views snapshot = routes at carries nodup
  have slotOf : ∀ {route : ProjectedRoute} {message : KernelRoute}, Carries exports route message →
      (⟨message.table, message.destination⟩ : TableKey) = route.slot := by
    intro route message carried
    have place := carried.place
    simp only [KernelRoute.place, ProjectedRoute.place, Place.mk.injEq] at place
    rw [ProjectedRoute.slot, place.1, place.2.1]
  induction carries with
  | nil => exact List.Pairwise.nil
  | cons here others ih =>
    obtain ⟨fresh, rest⟩ := List.nodup_cons.mp nodup
    refine List.pairwise_cons.mpr ⟨fun message later same => fresh ?_, ih rest⟩
    obtain ⟨route, listed, carried⟩ := carried_of_message others later
    rw [← slotOf here, same, slotOf carried]
    exact List.mem_map_of_mem listed

end Messages

theorem missingRoutes_sublist (exports : Export) (messages : List KernelRoute) (kernel : Kernel) :
    (missingRoutes exports messages kernel).Sublist messages :=
  List.filter_sublist

theorem place_routeIdentity (route : KernelRoute) : (routeIdentity route).place = route.place := rfl

/-! ## The operations of an attempt -/

variable {messages : List KernelRoute}

section Attempt
variable {exporter : Exporter} {attempt : Attempt} {kernel : Kernel}

/-- The operations in their order.  Rule operations leave the routes alone and route
operations the rules, so each dump can be taken from the kernel of the start. -/
def attemptOps (exporter : Exporter) (attempt : Attempt) (views : List ExportView)
    (messages : List KernelRoute) (kernel : Kernel) : List NetlinkOp :=
  staleRuleOps exporter.exports views attempt.retainRules kernel ++
    (routeOps exporter.exports messages exporter.recovery attempt.now kernel ++
      ruleOps attempt.order exporter.exports views attempt.retainRules
        (kernel.runAll (staleRuleOps exporter.exports views attempt.retainRules kernel)))

theorem routeOps_congr {exports : Export} {recovery : Recovery} {now : UInt64}
    {first second : Kernel} (same : first.routes = second.routes) :
    routeOps exports messages recovery now first = routeOps exports messages recovery now second := by
  simp only [routeOps, missingRoutes, staleRoutes, Kernel.ownedRoutes, same]

theorem ruleOps_congr {order : HashOrder} {exports : Export} {retain : Bool} {first second : Kernel}
    (same : first.rules = second.rules) :
    ruleOps order exports views retain first = ruleOps order exports views retain second := by
  simp only [ruleOps, missingRules, unwantedRules, Kernel.ownedRules, same]

theorem rules_routeOps (exports : Export) (messages : List KernelRoute) (recovery : Recovery)
    (now : UInt64) (dumped : Kernel) :
    (kernel.runAll (routeOps exports messages recovery now dumped)).rules = kernel.rules := by
  rw [routeOps, runAll_append, rules_runAll_deleteRoutes, rules_runAll_replaceRoutes]

theorem routes_ruleOps (order : HashOrder) (exports : Export) (views : List ExportView)
    (retain : Bool) (dumped : Kernel) :
    (kernel.runAll (ruleOps order exports views retain dumped)).routes = kernel.routes := by
  rw [ruleOps, runAll_append, routes_runAll_deleteRules, routes_runAll_addRules]

theorem applyViews_eq (views : List ExportView) (messages : List KernelRoute) :
    applyViews exporter attempt views messages kernel =
      (kernel.runAll (attemptOps exporter attempt views messages kernel),
        attemptOps exporter attempt views messages kernel) := by
  have routes : (kernel.runAll
      (staleRuleOps exporter.exports views attempt.retainRules kernel)).routes = kernel.routes :=
    routes_runAll_deleteRules _
  simp only [applyViews, Effect.andThen_apply, removeStaleRules_eq, reconcileRoutes_eq,
    reconcileRules_eq, attemptOps, runAll_append]
  rw [routeOps_congr routes, ruleOps_congr (rules_routeOps _ _ _ _ _)]

/-- A successful attempt has resolved its views and built its messages. -/
theorem applyLocked_ok {outcome : List RouteIdentity × List TableKey}
    (done : (applyLocked exporter attempt kernel).2 = .ok outcome) :
    ∃ views messages, (resolvedViews exporter attempt).1 = .ok views ∧
      routeMessages exporter.exports attempt.interfaceIndex (projectRoutes views attempt.snapshot) =
        .ok messages ∧
      (applyLocked exporter attempt kernel).1 = attemptOps exporter attempt views messages kernel ∧
      outcome = ((kernel.ownedRoutes exporter.exports.protocol).map routeIdentity,
        confirmedBy messages) := by
  unfold applyLocked at done ⊢
  cases resolved : (resolvedViews exporter attempt).1 with
  | error failure => simp [resolved] at done
  | ok views =>
    cases built : routeMessages exporter.exports attempt.interfaceIndex
        (projectRoutes views attempt.snapshot) with
    | error failure => simp [resolved, built] at done
    | ok messages =>
      simp only [resolved, built, Except.ok.injEq] at done
      refine ⟨views, messages, rfl, built, ?_, done.symm⟩
      simp only [built, applyViews_eq]

theorem mem_routes_attempt
    (apart : messages.Pairwise fun first second => first.place ≠ second.place) {route : KernelRoute} :
    route ∈ (kernel.runAll (attemptOps exporter attempt views messages kernel)).routes ↔
      (route ∈ missingRoutes exporter.exports messages kernel ∨
        route ∈ kernel.routes ∧
          ∀ message ∈ missingRoutes exporter.exports messages kernel, route.place ≠ message.place) ∧
      route ∉ staleRoutes exporter.exports messages exporter.recovery attempt.now kernel := by
  rw [attemptOps, runAll_append, runAll_append, routes_ruleOps, routeOps, runAll_append,
    routes_runAll_deleteRoutes, List.mem_filter,
    mem_routes_runAll_replaceRoutes (apart.sublist (missingRoutes_sublist _ _ _))]
  have before : (kernel.runAll
      (staleRuleOps exporter.exports views attempt.retainRules kernel)).routes = kernel.routes :=
    routes_runAll_deleteRules _
  rw [before]
  simp

end Attempt

/-! ## Entries of other protocols -/

def Kernel.foreignRoutes (kernel : Kernel) (protocol : UInt8) : List KernelRoute :=
  kernel.routes.filter fun route => route.protocol != protocol

def Kernel.foreignRules (kernel : Kernel) (protocol : UInt8) : List KernelRule :=
  kernel.rules.filter fun rule => rule.protocol != some protocol

/-- No two routes have one place. -/
def Kernel.Unique (kernel : Kernel) : Prop := (kernel.routes.map KernelRoute.place).Nodup

instance (kernel : Kernel) : Decidable kernel.Unique :=
  inferInstanceAs (Decidable (List.Nodup _))

/-- An operation on an owned entry; an installation also needs a place that no foreign
route has. -/
def NetlinkOp.Spares (protocol : UInt8) (foreign : List KernelRoute) : NetlinkOp → Prop
  | .replaceRoute message =>
    message.protocol = protocol ∧ ∀ route ∈ foreign, route.place ≠ message.place
  | .deleteRoute route => route.protocol = protocol
  | .addRule rule => rule.protocol = some protocol
  | .deleteRule rule => rule.protocol = some protocol

theorem run_spares {protocol : UInt8} {kernel : Kernel} {op : NetlinkOp}
    (spares : op.Spares protocol (kernel.foreignRoutes protocol)) :
    (op.run kernel).foreignRoutes protocol = kernel.foreignRoutes protocol ∧
      (op.run kernel).foreignRules protocol = kernel.foreignRules protocol := by
  cases op with
  | replaceRoute message =>
    obtain ⟨owned, free⟩ := spares
    refine ⟨?_, rfl⟩
    have kept : ((kernel.foreignRoutes protocol).filter fun old =>
        decide (old.place ≠ message.place)) = kernel.foreignRoutes protocol :=
      List.filter_eq_self.mpr fun route member => decide_eq_true (free route member)
    calc (NetlinkOp.run kernel (.replaceRoute message)).foreignRoutes protocol
        = (kernel.routes.filter fun old => decide (old.place ≠ message.place)).filter
            fun route => route.protocol != protocol := by
          simp [Kernel.foreignRoutes, NetlinkOp.run, owned]
      _ = (kernel.foreignRoutes protocol).filter fun old =>
            decide (old.place ≠ message.place) := List.filter_comm _ _ _
      _ = kernel.foreignRoutes protocol := kept
  | deleteRoute route =>
    refine ⟨?_, rfl⟩
    simp only [Kernel.foreignRoutes, NetlinkOp.run, List.filter_filter]
    refine List.filter_congr fun old _ => ?_
    by_cases same : old = route
    · have owned : old.protocol = protocol := same ▸ spares
      simp [owned]
    · simp [same]
  | addRule rule =>
    have owned : rule.protocol = some protocol := spares
    refine ⟨rfl, ?_⟩
    simp [Kernel.foreignRules, NetlinkOp.run, owned]
  | deleteRule rule =>
    refine ⟨rfl, ?_⟩
    simp only [Kernel.foreignRules, NetlinkOp.run, List.filter_filter]
    refine List.filter_congr fun old _ => ?_
    by_cases same : old = rule
    · have owned : old.protocol = some protocol := same ▸ spares
      simp [owned]
    · simp [same]

theorem runAll_spares {protocol : UInt8} {kernel : Kernel} {ops : List NetlinkOp}
    (spares : ∀ op ∈ ops, op.Spares protocol (kernel.foreignRoutes protocol)) :
    (kernel.runAll ops).foreignRoutes protocol = kernel.foreignRoutes protocol ∧
      (kernel.runAll ops).foreignRules protocol = kernel.foreignRules protocol := by
  induction ops generalizing kernel with
  | nil => exact ⟨rfl, rfl⟩
  | cons op rest ih =>
    obtain ⟨routes, rules⟩ := run_spares (spares op List.mem_cons_self)
    have others : ∀ other ∈ rest,
        other.Spares protocol ((op.run kernel).foreignRoutes protocol) := by
      rw [routes]
      exact fun other member => spares other (List.mem_cons_of_mem _ member)
    obtain ⟨laterRoutes, laterRules⟩ := ih others
    exact ⟨laterRoutes.trans routes, laterRules.trans rules⟩

section Foreign
variable {exporter : Exporter} {attempt : Attempt} {kernel : Kernel}

/-- Every operation of an attempt is on an owned entry. -/
theorem attemptOps_spare
    (owned : ∀ message ∈ messages, message.protocol = exporter.exports.protocol)
    {foreign : List KernelRoute}
    (free : ∀ route ∈ foreign, ∀ message ∈ messages, route.place ≠ message.place) :
    ∀ op ∈ attemptOps exporter attempt views messages kernel,
      op.Spares exporter.exports.protocol foreign := by
  intro op member
  simp only [attemptOps, staleRuleOps, routeOps, ruleOps, List.mem_append, List.mem_map] at member
  rcases member with ⟨rule, stale, rfl⟩ | (⟨message, missing, rfl⟩ | ⟨route, stale, rfl⟩) |
    ⟨rule, missing, rfl⟩ | ⟨rule, unwanted, rfl⟩
  · exact (mem_ownedRules.mp (List.mem_of_mem_filter stale)).2
  · have listed := (missingRoutes_sublist _ _ _).subset missing
    exact ⟨owned message listed, fun route member => free route member message listed⟩
  · exact (mem_ownedRoutes.mp (List.mem_of_mem_filter stale)).2
  · exact rfl
  · exact (mem_ownedRules.mp (List.mem_of_mem_filter unwanted)).2

/-- A successful attempt leaves the entries of other protocols alone exactly if none of
their routes has the place of a projected route. -/
theorem foreign_untouched_iff {outcome : List RouteIdentity × List TableKey}
    (unique : kernel.Unique) (done : (applyLocked exporter attempt kernel).2 = .ok outcome) :
    ((kernel.runAll (applyLocked exporter attempt kernel).1).foreignRoutes exporter.exports.protocol =
          kernel.foreignRoutes exporter.exports.protocol ∧
        (kernel.runAll (applyLocked exporter attempt kernel).1).foreignRules
            exporter.exports.protocol = kernel.foreignRules exporter.exports.protocol) ↔
      ∀ views, (resolvedViews exporter attempt).1 = .ok views →
        ∀ projected ∈ projectRoutes views attempt.snapshot,
          ∀ route ∈ kernel.foreignRoutes exporter.exports.protocol, route.place ≠ projected.place := by
  obtain ⟨views, messages, resolved, built, ops, -⟩ := applyLocked_ok done
  have carries := routeMessages_carries built
  have owned : ∀ message ∈ messages, message.protocol = exporter.exports.protocol := by
    intro message member
    obtain ⟨route, -, carried⟩ := carried_of_message carries member
    exact carried.protocol
  rw [ops]
  constructor
  · rintro ⟨same, -⟩ views' resolved' projected member route foreign collides
    obtain rfl : views = views' := Except.ok.inj (resolved.symm.trans resolved')
    obtain ⟨message, listed, carried⟩ := message_of_carried carries member
    obtain ⟨installed, other⟩ := List.mem_filter.mp foreign
    have samePlace : route.place = message.place := collides.trans carried.place.symm
    -- The place is the foreign route's, so no owned route has the message's identity.
    have missing : message ∈ missingRoutes exporter.exports messages kernel := by
      refine List.mem_filter.mpr ⟨listed, ?_⟩
      simp only [Bool.not_eq_true', List.contains_eq_mem, decide_eq_false_iff_not, List.mem_map,
        not_exists, not_and]
      intro old oldOwned identity
      have oldPlace : old.place = route.place := by
        rw [samePlace, ← place_routeIdentity, identity, place_routeIdentity]
      have equal : old = route :=
        List.inj_on_of_nodup_map unique (List.mem_of_mem_filter oldOwned) installed oldPlace
      subst equal
      simp [(mem_ownedRoutes.mp oldOwned).2] at other
    have apart : messages.Pairwise fun first second => first.place ≠ second.place := by
      refine (messages_apart carries).imp fun different same => different ?_
      simp only [KernelRoute.place, Place.mk.injEq] at same
      rw [same.1, same.2.1]
    have stays : route ∈
        (kernel.runAll (attemptOps exporter attempt views messages kernel)).routes := by
      have inside := foreign
      rw [← same] at inside
      exact List.mem_of_mem_filter inside
    rcases ((mem_routes_attempt apart).mp stays).1 with new | ⟨-, free⟩
    · have isOwned := owned route ((missingRoutes_sublist _ _ _).subset new)
      simp [isOwned] at other
    · exact free message missing samePlace
  · intro free
    refine runAll_spares (attemptOps_spare owned fun route member message listed => ?_)
    obtain ⟨projected, among, carried⟩ := carried_of_message carries listed
    rw [carried.place]
    exact free views resolved projected among route member

end Foreign

namespace Fixture

def staticRoute (priority : UInt32) : KernelRoute where
  protocol := 4
  table := 201
  destination := .v4 0xc0000200 24
  priority := priority
  outputInterface := 3
  gateway := none
  kind := .unicast
  linkScope := true
  onlink := false

def exporting : Exporter := ⟨automaticExport, OrdMap.empty, Recovery.default⟩

def attempting (snapshot : RouteSnapshot) (now : UInt64) : Attempt :=
  ⟨snapshot, true, now, fun _ => some 7, HashOrder.stored⟩

def single : RouteSnapshot := ⟨1, [selected (.v4 0xc0000200 24) none 96], []⟩

/-- A static route with the metric that the Babel route's priority comes to. -/
theorem static_route_is_replaced :
    (applyLocked exporting (attempting single 0) ⟨[staticRoute 65631], []⟩).2 =
        .ok ([], [⟨201, .v4 0xc0000200 24⟩]) ∧
      (Kernel.runAll ⟨[staticRoute 65631], []⟩
        (applyLocked exporting (attempting single 0) ⟨[staticRoute 65631], []⟩).1).foreignRoutes 203 =
          [] := by
  decide +kernel

theorem static_route_elsewhere_stays :
    (Kernel.runAll ⟨[staticRoute 100], []⟩
        (applyLocked exporting (attempting single 0) ⟨[staticRoute 100], []⟩).1).foreignRoutes 203 =
      [staticRoute 100] := by
  have unique : Kernel.Unique ⟨[staticRoute 100], []⟩ := by decide +kernel
  have done : (applyLocked exporting (attempting single 0) ⟨[staticRoute 100], []⟩).2 =
      .ok ([], [⟨201, .v4 0xc0000200 24⟩]) := by decide +kernel
  refine ((foreign_untouched_iff unique done).mpr ?_).1
  have resolved : (resolvedViews exporting (attempting single 0)).1 =
      .ok [ExportView.plain 201 none] := by decide +kernel
  intro views found
  obtain rfl := Except.ok.inj (resolved.symm.trans found)
  decide +kernel

end Fixture

end BabelRs.Linux
