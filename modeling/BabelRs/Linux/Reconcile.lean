import BabelRs.Lib.Effect
import BabelRs.Linux.Recovery
import Mathlib.Data.List.Dedup

/-!
# Reconciliation with the kernel

Models `linux/netlink.rs` over a kernel that holds routes and rules.  A dumped message
is the entry itself with its attributes read (`linux/identity.rs`); an entry without a
destination attribute is the default route, so a route always has an identity.  An
attempt is the list of netlink operations it issues; one that fails has issued a
prefix of them.
-/

set_option autoImplicit false

namespace BabelRs.Linux

open Lib Lib.Effect

/-! ## The kernel -/

inductive RouteKind where
  | unicast
  | unreachable
  | other
deriving DecidableEq, Repr

structure KernelRoute where
  protocol : UInt8
  table : UInt32
  destination : IpNet
  priority : UInt32
  outputInterface : UInt32
  gateway : Option IpAddr
  kind : RouteKind
  linkScope : Bool
  onlink : Bool
deriving DecidableEq, Repr

/-- A rule; those of other programs need not select by source. -/
structure KernelRule where
  protocol : Option UInt8
  table : UInt32
  priority : Option UInt32
  source : Option IpNet
deriving DecidableEq, Repr

structure Kernel where
  routes : List KernelRoute
  rules : List KernelRule
deriving DecidableEq

/-- What the kernel holds at most one route for. -/
structure Place where
  table : UInt32
  destination : IpNet
  priority : UInt32
deriving DecidableEq, Repr

def KernelRoute.place (route : KernelRoute) : Place := ⟨route.table, route.destination, route.priority⟩

def RouteIdentity.place (route : RouteIdentity) : Place := ⟨route.table, route.destination, route.priority⟩

/-- `route_identity`.  The loopback interface of a reject route is not a next hop. -/
def routeIdentity (route : KernelRoute) : RouteIdentity :=
  let unreachable := route.kind == .unreachable
  { table := route.table
    destination := route.destination
    priority := route.priority
    outputInterface := if unreachable then 0 else route.outputInterface
    gateway := if unreachable then none else route.gateway
    unreachable := unreachable }

/-- `rule_identity`: none without a priority and a source. -/
def ruleIdentity (rule : KernelRule) : Option RuleIdentity :=
  match rule.priority, rule.source with
  | some priority, some source => some ⟨rule.table, priority, source⟩
  | _, _ => none

inductive NetlinkOp where
  | replaceRoute (route : KernelRoute)
  | deleteRoute (route : KernelRoute)
  | addRule (rule : KernelRule)
  | deleteRule (rule : KernelRule)
deriving DecidableEq, Repr

/-- A replacing add removes whatever had its place; a delete removes the matching entry
and reports its absence. -/
def NetlinkOp.run (kernel : Kernel) : NetlinkOp → Kernel
  | .replaceRoute route =>
    { kernel with
      routes := (kernel.routes.filter fun old => decide (old.place ≠ route.place)) ++ [route] }
  | .deleteRoute route =>
    { kernel with routes := kernel.routes.filter fun old => decide (old ≠ route) }
  | .addRule rule => { kernel with rules := kernel.rules ++ [rule] }
  | .deleteRule rule =>
    { kernel with rules := kernel.rules.filter fun old => decide (old ≠ rule) }

def Kernel.runAll (kernel : Kernel) (ops : List NetlinkOp) : Kernel := ops.foldl NetlinkOp.run kernel

def Kernel.ownedRoutes (kernel : Kernel) (protocol : UInt8) : List KernelRoute :=
  kernel.routes.filter fun route => route.protocol == protocol

def Kernel.ownedRules (kernel : Kernel) (protocol : UInt8) : List KernelRule :=
  kernel.rules.filter fun rule => rule.protocol == some protocol

/-- The rules that a start finds and could have made. -/
def recoveredRules (config : Config) (kernel : Kernel) : List RuleIdentity :=
  ((kernel.ownedRules config.exports.protocol).filterMap ruleIdentity).filter
    fun rule => eligibleRule rule config.exports

/-- `begin_recovery`: the rules and unicast routes of the protocol that the
configuration could have installed. -/
def beginRecovery (host : Host) (config : Config) (indices : List UInt32) (now : UInt64)
    (kernel : Kernel) (previous : Journal) : Recovery :=
  let rules := recoveredRules config kernel
  let routes := (((kernel.ownedRoutes config.exports.protocol).filter fun route =>
      route.kind == .unicast).map routeIdentity).filter (eligibleRoute config indices rules)
  Recovery.load host config routes rules now previous

/-! ## Messages -/

def routePriority (route : ProjectedRoute) : UInt32 :=
  DYNAMIC_PRIORITY_BASE + ((route.selected.map SelectedRoute.metric).getD INFINITY).toUInt32

/-- The message for a projected route; `interfaceIndex` reads the index of a name. -/
def routeMessage (exports : Export) (interfaceIndex : InterfaceName → Option UInt32)
    (route : ProjectedRoute) : Except LinuxError KernelRoute :=
  match route.selected with
  | none =>
    .ok
      { protocol := exports.protocol
        table := route.table
        destination := route.key.destination
        priority := routePriority route
        outputInterface := 0
        gateway := none
        kind := .unreachable
        linkScope := false
        onlink := false }
  | some selected =>
    match interfaceIndex selected.interface with
    | none => .error (.interface selected.interface)
    | some index =>
      .ok
        { protocol := exports.protocol
          table := route.table
          destination := route.key.destination
          priority := routePriority route
          outputInterface := index
          gateway := if exports.deviceOnly then none else some selected.nextHop
          kind := .unicast
          linkScope := exports.deviceOnly
          onlink := !exports.deviceOnly }

def routeMessages (exports : Export) (interfaceIndex : InterfaceName → Option UInt32) :
    List ProjectedRoute → Except LinuxError (List KernelRoute)
  | [] => .ok []
  | route :: rest => do
    let message ← routeMessage exports interfaceIndex route
    let messages ← routeMessages exports interfaceIndex rest
    return message :: messages

def confirmedBy (messages : List KernelRoute) : List TableKey :=
  (messages.filter fun message => message.kind != .unreachable).map fun message =>
    ⟨message.table, message.destination⟩

/-! ## An attempt -/

def issue (op : NetlinkOp) : Effect Kernel NetlinkOp := fun kernel => (op.run kernel, [op])

/-- Whether a rule is that of a view. -/
def viewRule (exports : Export) (views : List ExportView) (rule : RuleIdentity) : Bool :=
  views.any fun view => view.source == some rule.source && view.table == rule.table &&
    exports.rulePriority view == rule.priority

def staleRules (exports : Export) (views : List ExportView) (retain : Bool) (kernel : Kernel) :
    List KernelRule :=
  (kernel.ownedRules exports.protocol).filter fun rule =>
    !(retain && exports.manageRules && (ruleIdentity rule).any (viewRule exports views))

def removeStaleRules (exports : Export) (views : List ExportView) (retain : Bool) :
    Effect Kernel NetlinkOp := fun kernel =>
  forEach (staleRules exports views retain kernel) (fun rule => issue (.deleteRule rule)) kernel

def missingRoutes (exports : Export) (messages : List KernelRoute) (kernel : Kernel) :
    List KernelRoute :=
  messages.filter fun message =>
    !((kernel.ownedRoutes exports.protocol).map routeIdentity).contains (routeIdentity message)

def staleRoutes (exports : Export) (messages : List KernelRoute) (recovery : Recovery) (now : UInt64)
    (kernel : Kernel) : List KernelRoute :=
  (kernel.ownedRoutes exports.protocol).filter fun route =>
    !(messages.map routeIdentity).contains (routeIdentity route) &&
      !recovery.keep (routeIdentity route) (confirmedBy messages) now

/-- Install before removing; both read the dump from before the installation. -/
def reconcileRoutes (exports : Export) (messages : List KernelRoute) (recovery : Recovery)
    (now : UInt64) : Effect Kernel NetlinkOp := fun kernel =>
  andThen
    (forEach (missingRoutes exports messages kernel) fun message =>
      issue (.replaceRoute message))
    (forEach (staleRoutes exports messages recovery now kernel) fun route =>
      issue (.deleteRoute route))
    kernel

def desiredRules (exports : Export) (views : List ExportView) (retain : Bool) : List RuleIdentity :=
  if retain && exports.manageRules then
    (views.filterMap fun view => view.source.map fun source =>
      ⟨view.table, exports.rulePriority view, source⟩).dedup
  else []

def ruleMessage (exports : Export) (rule : RuleIdentity) : KernelRule :=
  ⟨some exports.protocol, rule.table, some rule.priority, some rule.source⟩

def missingRules (exports : Export) (desired : List RuleIdentity) (kernel : Kernel) :
    List RuleIdentity :=
  desired.filter fun rule =>
    !((kernel.ownedRules exports.protocol).filterMap ruleIdentity).contains rule

def unwantedRules (exports : Export) (desired : List RuleIdentity) (kernel : Kernel) :
    List KernelRule :=
  (kernel.ownedRules exports.protocol).filter fun rule => !(ruleIdentity rule).any desired.contains

def reconcileRules (order : HashOrder) (exports : Export) (views : List ExportView) (retain : Bool) :
    Effect Kernel NetlinkOp := fun kernel =>
  let desired := desiredRules exports views retain
  andThen
    (forEach (order.iter (missingRules exports desired kernel)) fun rule =>
      issue (.addRule (ruleMessage exports rule)))
    (forEach (unwantedRules exports desired kernel) fun rule => issue (.deleteRule rule))
    kernel

structure Attempt where
  snapshot : RouteSnapshot
  retainRules : Bool
  now : UInt64
  interfaceIndex : InterfaceName → Option UInt32
  order : HashOrder

structure Exporter where
  exports : Export
  allocated : OrdMap IpNet UInt32
  recovery : Recovery

section Attempt
variable (exporter : Exporter) (attempt : Attempt)

def heldSources : OrdMap IpNet UInt32 := exporter.recovery.sources attempt.now exporter.exports

def resolvedViews : Except LinuxError (List ExportView) × OrdMap IpNet UInt32 :=
  sourceViewsWithRecovery exporter.exports attempt.snapshot exporter.allocated
    (heldSources exporter attempt)

/-- The effect of an attempt on the kernel once its views and messages are known. -/
def applyViews (views : List ExportView) (messages : List KernelRoute) : Effect Kernel NetlinkOp :=
  andThen (removeStaleRules exporter.exports views attempt.retainRules)
    (andThen (reconcileRoutes exporter.exports messages exporter.recovery attempt.now)
      (reconcileRules attempt.order exporter.exports views attempt.retainRules))

/-- `apply_locked`: the operations in their order, and on success the dumped identities
and confirmed destinations that recovery is told of.  The messages are built after the
stale rules are gone. -/
def applyLocked (kernel : Kernel) :
    List NetlinkOp × Except LinuxError (List RouteIdentity × List TableKey) :=
  match (resolvedViews exporter attempt).1 with
  | .error failure => ([], .error failure)
  | .ok views =>
    match routeMessages exporter.exports attempt.interfaceIndex
        (projectRoutes views attempt.snapshot) with
    | .error failure =>
      ((removeStaleRules exporter.exports views attempt.retainRules kernel).2, .error failure)
    | .ok messages =>
      ((applyViews exporter attempt views messages kernel).2,
        .ok ((kernel.ownedRoutes exporter.exports.protocol).map routeIdentity, confirmedBy messages))

end Attempt

/-! ## The operations as lists -/

variable {α : Type}

theorem forEach_issue (operation : α → NetlinkOp) (items : List α) (kernel : Kernel) :
    forEach items (fun item => issue (operation item)) kernel =
      (kernel.runAll (items.map operation), items.map operation) := by
  induction items generalizing kernel with
  | nil => rfl
  | cons item rest ih =>
    rw [forEach_cons, andThen_apply, issue, ih]
    rfl

theorem runAll_append (kernel : Kernel) (first second : List NetlinkOp) :
    kernel.runAll (first ++ second) = (kernel.runAll first).runAll second :=
  List.foldl_append

def staleRuleOps (exports : Export) (views : List ExportView) (retain : Bool) (kernel : Kernel) :
    List NetlinkOp :=
  (staleRules exports views retain kernel).map .deleteRule

def routeOps (exports : Export) (messages : List KernelRoute) (recovery : Recovery) (now : UInt64)
    (kernel : Kernel) : List NetlinkOp :=
  (missingRoutes exports messages kernel).map .replaceRoute ++
    (staleRoutes exports messages recovery now kernel).map .deleteRoute

def ruleOps (order : HashOrder) (exports : Export) (views : List ExportView) (retain : Bool)
    (kernel : Kernel) : List NetlinkOp :=
  (order.iter (missingRules exports (desiredRules exports views retain) kernel)).map
      (fun rule => .addRule (ruleMessage exports rule)) ++
    (unwantedRules exports (desiredRules exports views retain) kernel).map .deleteRule

theorem removeStaleRules_eq (exports : Export) (views : List ExportView) (retain : Bool)
    (kernel : Kernel) :
    removeStaleRules exports views retain kernel =
      (kernel.runAll (staleRuleOps exports views retain kernel),
        staleRuleOps exports views retain kernel) :=
  forEach_issue _ _ _

theorem reconcileRoutes_eq (exports : Export) (messages : List KernelRoute) (recovery : Recovery)
    (now : UInt64) (kernel : Kernel) :
    reconcileRoutes exports messages recovery now kernel =
      (kernel.runAll (routeOps exports messages recovery now kernel),
        routeOps exports messages recovery now kernel) := by
  simp only [reconcileRoutes, andThen_apply, forEach_issue, routeOps, runAll_append]

theorem reconcileRules_eq (order : HashOrder) (exports : Export) (views : List ExportView)
    (retain : Bool) (kernel : Kernel) :
    reconcileRules order exports views retain kernel =
      (kernel.runAll (ruleOps order exports views retain kernel),
        ruleOps order exports views retain kernel) := by
  simp only [reconcileRules, andThen_apply, forEach_issue, ruleOps, runAll_append]

/-! ### What they do to routes and rules -/

variable {route : KernelRoute}

section Operations
variable {kernel : Kernel}

@[simp] theorem routes_runAll_deleteRules (rules : List KernelRule) :
    (kernel.runAll (rules.map .deleteRule)).routes = kernel.routes := by
  induction rules generalizing kernel with
  | nil => rfl
  | cons rule rest ih => exact ih

@[simp] theorem routes_runAll_addRules (message : α → KernelRule) (items : List α) :
    (kernel.runAll (items.map fun item => .addRule (message item))).routes = kernel.routes := by
  induction items generalizing kernel with
  | nil => rfl
  | cons item rest ih => exact ih

@[simp] theorem rules_runAll_replaceRoutes (routes : List KernelRoute) :
    (kernel.runAll (routes.map .replaceRoute)).rules = kernel.rules := by
  induction routes generalizing kernel with
  | nil => rfl
  | cons route rest ih => exact ih

@[simp] theorem rules_runAll_deleteRoutes (routes : List KernelRoute) :
    (kernel.runAll (routes.map .deleteRoute)).rules = kernel.rules := by
  induction routes generalizing kernel with
  | nil => rfl
  | cons route rest ih => exact ih

theorem rules_runAll_deleteRules (rules : List KernelRule) :
    (kernel.runAll (rules.map .deleteRule)).rules =
      kernel.rules.filter fun old => !rules.contains old := by
  induction rules generalizing kernel with
  | nil => simp [Kernel.runAll]
  | cons rule rest ih =>
    have stepped : kernel.runAll ((rule :: rest).map .deleteRule) =
        (NetlinkOp.run kernel (.deleteRule rule)).runAll (rest.map .deleteRule) := rfl
    rw [stepped, ih, NetlinkOp.run, List.filter_filter]
    refine List.filter_congr fun old _ => ?_
    by_cases same : old = rule
    · simp [same]
    · simp [same]

theorem routes_runAll_deleteRoutes (routes : List KernelRoute) :
    (kernel.runAll (routes.map .deleteRoute)).routes =
      kernel.routes.filter fun old => !routes.contains old := by
  induction routes generalizing kernel with
  | nil => simp [Kernel.runAll]
  | cons route rest ih =>
    have stepped : kernel.runAll ((route :: rest).map .deleteRoute) =
        (NetlinkOp.run kernel (.deleteRoute route)).runAll (rest.map .deleteRoute) := rfl
    rw [stepped, ih, NetlinkOp.run, List.filter_filter]
    refine List.filter_congr fun old _ => ?_
    by_cases same : old = route
    · simp [same]
    · simp [same]

theorem rules_runAll_addRules (message : α → KernelRule) (items : List α) :
    (kernel.runAll (items.map fun item => .addRule (message item))).rules =
      kernel.rules ++ items.map message := by
  induction items generalizing kernel with
  | nil => simp [Kernel.runAll]
  | cons item rest ih =>
    have stepped : kernel.runAll ((item :: rest).map fun item => .addRule (message item)) =
        (NetlinkOp.run kernel (.addRule (message item))).runAll
          (rest.map fun item => .addRule (message item)) := rfl
    rw [stepped, ih, NetlinkOp.run]
    simp

/-- Installations for different places all last; an old route stays if nobody takes its
place. -/
theorem mem_routes_runAll_replaceRoutes {messages : List KernelRoute}
    (distinct : messages.Pairwise fun first second => first.place ≠ second.place) :
    route ∈ (kernel.runAll (messages.map .replaceRoute)).routes ↔
      route ∈ messages ∨ route ∈ kernel.routes ∧ ∀ message ∈ messages, route.place ≠ message.place := by
  induction messages generalizing kernel with
  | nil => simp [Kernel.runAll]
  | cons message rest ih =>
    obtain ⟨apart, later⟩ := List.pairwise_cons.mp distinct
    have stepped : kernel.runAll ((message :: rest).map .replaceRoute) =
        (NetlinkOp.run kernel (.replaceRoute message)).runAll (rest.map .replaceRoute) := rfl
    rw [stepped, ih later, NetlinkOp.run, List.forall_mem_cons]
    simp only [List.mem_append, List.mem_filter, decide_eq_true_eq, List.mem_cons,
      List.not_mem_nil, or_false]
    constructor
    · rintro (member | ⟨⟨old, free⟩ | rfl, others⟩)
      · exact Or.inl (Or.inr member)
      · exact Or.inr ⟨old, free, others⟩
      · exact Or.inl (Or.inl rfl)
    · rintro ((rfl | member) | ⟨old, free, others⟩)
      · exact Or.inr ⟨Or.inr rfl, apart⟩
      · exact Or.inl member
      · exact Or.inr ⟨Or.inl ⟨old, free⟩, others⟩

end Operations

/-! ### Membership -/

section Membership
variable {kernel : Kernel} {views : List ExportView} {messages : List KernelRoute}

variable {exports : Export}

theorem mem_routeMessages {interfaceIndex : InterfaceName → Option UInt32}
    {routes : List ProjectedRoute} {messages : List KernelRoute}
    (built : routeMessages exports interfaceIndex routes = .ok messages) {message : KernelRoute} :
    message ∈ messages ↔ ∃ route ∈ routes, routeMessage exports interfaceIndex route = .ok message := by
  induction routes generalizing messages with
  | nil =>
    obtain rfl := Except.ok.inj built
    simp
  | cons route rest ih =>
    simp only [routeMessages, bind, Except.bind, pure, Except.pure] at built
    cases first : routeMessage exports interfaceIndex route with
    | error failure => simp [first] at built
    | ok head =>
      cases others : routeMessages exports interfaceIndex rest with
      | error failure => simp [first, others] at built
      | ok later =>
        simp only [first, others, Except.ok.injEq] at built
        subst built
        simp [ih others, first, eq_comm]

theorem mem_confirmedBy {messages : List KernelRoute} {key : TableKey} :
    key ∈ confirmedBy messages ↔ ∃ message ∈ messages, message.kind ≠ .unreachable ∧
      key = ⟨message.table, message.destination⟩ := by
  simp only [confirmedBy, List.mem_map, List.mem_filter, bne_iff_ne, ne_eq, and_assoc,
    @eq_comm _ key]

theorem mem_ownedRoutes {protocol : UInt8} :
    route ∈ kernel.ownedRoutes protocol ↔ route ∈ kernel.routes ∧ route.protocol = protocol := by
  simp [Kernel.ownedRoutes]

variable {rule : KernelRule}

theorem mem_ownedRules {protocol : UInt8} :
    rule ∈ kernel.ownedRules protocol ↔ rule ∈ kernel.rules ∧ rule.protocol = some protocol := by
  simp [Kernel.ownedRules]

theorem mem_missingRoutes {message : KernelRoute} :
    message ∈ missingRoutes exports messages kernel ↔ message ∈ messages ∧
      ∀ route ∈ kernel.ownedRoutes exports.protocol, routeIdentity route ≠ routeIdentity message := by
  simp [missingRoutes]

theorem mem_staleRoutes {recovery : Recovery} {now : UInt64} :
    route ∈ staleRoutes exports messages recovery now kernel ↔
      route ∈ kernel.ownedRoutes exports.protocol ∧
        routeIdentity route ∉ messages.map routeIdentity ∧
        recovery.keep (routeIdentity route) (confirmedBy messages) now = false := by
  simp only [staleRoutes, List.mem_filter, Bool.and_eq_true, Bool.not_eq_true', List.contains_eq_mem,
    decide_eq_false_iff_not]

theorem mem_desiredRules {retain : Bool} {rule : RuleIdentity} :
    rule ∈ desiredRules exports views retain ↔ retain = true ∧ exports.manageRules = true ∧
      ∃ view ∈ views, ∃ source, view.source = some source ∧
        rule = ⟨view.table, exports.rulePriority view, source⟩ := by
  unfold desiredRules
  cases managed : retain && exports.manageRules with
  | false =>
    simp only [Bool.false_eq_true, if_false, List.not_mem_nil, false_iff, not_and]
    intro retained manages
    simp [retained, manages] at managed
  | true =>
    obtain ⟨retained, manages⟩ := Bool.and_eq_true_iff.mp managed
    simp [retained, manages, @eq_comm _ rule]

theorem viewRule_iff {rule : RuleIdentity} :
    viewRule exports views rule = true ↔ ∃ view ∈ views, ∃ source, view.source = some source ∧
      rule = ⟨view.table, exports.rulePriority view, source⟩ := by
  simp only [viewRule, List.any_eq_true, Bool.and_eq_true, beq_iff_eq, and_assoc]
  constructor
  · rintro ⟨view, listed, source, table, priority⟩
    refine ⟨view, listed, rule.source, source, ?_⟩
    cases rule
    simp_all
  · rintro ⟨view, listed, source, named, rfl⟩
    exact ⟨view, listed, named, rfl, rfl⟩

theorem mem_staleRules {retain : Bool} :
    rule ∈ staleRules exports views retain kernel ↔ rule ∈ kernel.ownedRules exports.protocol ∧
      ∀ identity ∈ desiredRules exports views retain, ruleIdentity rule ≠ some identity := by
  simp only [staleRules, List.mem_filter, Bool.not_eq_true', ← Bool.not_eq_true, Bool.and_eq_true,
    Option.any_eq_true, viewRule_iff]
  refine and_congr_right fun _ => ⟨fun stale identity desired named => stale ?_, fun apart fresh => ?_⟩
  · obtain ⟨retained, manages, shape⟩ := mem_desiredRules.mp desired
    exact ⟨⟨retained, manages⟩, identity, named, shape⟩
  · obtain ⟨⟨retained, manages⟩, identity, named, shape⟩ := fresh
    exact apart identity (mem_desiredRules.mpr ⟨retained, manages, shape⟩) named

theorem mem_unwantedRules {desired : List RuleIdentity} :
    rule ∈ unwantedRules exports desired kernel ↔ rule ∈ kernel.ownedRules exports.protocol ∧
      ∀ identity ∈ desired, ruleIdentity rule ≠ some identity := by
  simp only [unwantedRules, List.mem_filter, Bool.not_eq_true', ← Bool.not_eq_true,
    Option.any_eq_true, List.contains_eq_mem, decide_eq_true_eq, not_exists, not_and]
  exact and_congr_right fun _ => ⟨fun unwanted identity inside named => unwanted identity named inside,
    fun apart identity named inside => apart identity inside named⟩

theorem mem_missingRules {desired : List RuleIdentity} {rule : RuleIdentity} :
    rule ∈ missingRules exports desired kernel ↔ rule ∈ desired ∧
      ∀ old ∈ kernel.ownedRules exports.protocol, ruleIdentity old ≠ some rule := by
  simp [missingRules]

end Membership

end BabelRs.Linux
