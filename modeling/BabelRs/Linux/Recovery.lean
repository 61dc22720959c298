import BabelRs.Lib.Saturating
import BabelRs.Linux.Projection

/-!
# Recovery of forwarding state

Models `linux/recovery.rs`: the journal of routes that an earlier process left in the
kernel, the deadlines they get, and when they are kept.  The journal's scope is the
serialized export and import policy; two scopes are compared as values, and the empty
text of a journal without one is `none`.
-/

set_option autoImplicit false

namespace BabelRs.Linux

open Lib

def DYNAMIC_PRIORITY_BASE : UInt32 := 65535

structure RouteIdentity where
  table : UInt32
  destination : IpNet
  priority : UInt32
  outputInterface : UInt32
  gateway : Option IpAddr
  unreachable : Bool
deriving DecidableEq, Repr

structure RuleIdentity where
  table : UInt32
  priority : UInt32
  source : IpNet
deriving DecidableEq, Repr

structure PendingRoute where
  route : RouteIdentity
  deadlineMs : UInt64
deriving DecidableEq, Repr

/-- The export and the import policy that routes were admitted under. -/
abbrev Scope := Export × Policy.Filter

structure Journal where
  version : UInt8
  boot : String
  namesp : String
  protocol : UInt8
  exportScope : Option Scope
  pending : List PendingRoute
deriving DecidableEq

def Journal.default : Journal := ⟨0, "", "", 0, none, []⟩

structure Config where
  exports : Export
  importPolicy : Policy.Filter
  restartRecoverySeconds : UInt32
deriving DecidableEq

def Config.scope (config : Config) : Scope := (config.exports, config.importPolicy)

structure Host where
  boot : String
  namesp : String
deriving DecidableEq

structure Recovery where
  path : Bool
  journal : Journal
  rules : List RuleIdentity
  revoked : Bool
  dirty : Bool
deriving DecidableEq

/-- The exporter's state before `begin_recovery`. -/
def Recovery.default : Recovery := ⟨false, Journal.default, [], false, false⟩

/-! ## Loading -/

/-- Whether something besides the views' tables and sources decides what is admitted. -/
def Config.scoped (config : Config) : Bool :=
  config.importPolicy != Policy.Filter.all ||
    config.exports.views.any fun view => view.filter != Policy.Filter.all

def Journal.scopeChanged (previous : Journal) (config : Config) : Bool :=
  match previous.exportScope with
  | none => config.scoped
  | some scope => scope != config.scope

def Journal.compatible (previous : Journal) (host : Host) (config : Config) : Bool :=
  previous.version == 1 && previous.boot == host.boot && previous.namesp == host.namesp &&
    previous.protocol == config.exports.protocol

/-- The deadlines of a compatible journal.  A hash map keeps the last entry of a key. -/
def Journal.deadlineOf (previous : Journal) (host : Host) (config : Config) (route : RouteIdentity) :
    Option UInt64 :=
  if previous.compatible host config then
    (previous.pending.reverse.find? fun pending => pending.route == route).map
      PendingRoute.deadlineMs
  else none

def Journal.freshDeadline (previous : Journal) (config : Config) (now : UInt64) : UInt64 :=
  if previous.scopeChanged config then 0
  else satAdd now (config.restartRecoverySeconds.toUInt64 * 1000)

def Recovery.load (host : Host) (config : Config) (routes : List RouteIdentity)
    (rules : List RuleIdentity) (now : UInt64) (previous : Journal) : Recovery :=
  let deadline := previous.freshDeadline config now
  { path := true
    journal :=
      { version := 1
        boot := host.boot
        namesp := host.namesp
        protocol := config.exports.protocol
        exportScope := some config.scope
        pending := routes.map fun route =>
          ⟨route, min ((previous.deadlineOf host config route).getD deadline) deadline⟩ }
    rules := if previous.scopeChanged config then [] else rules
    revoked := false
    dirty := false }

/-! ## Use -/

namespace Recovery

def revoke (self : Recovery) : Recovery := { self with revoked := true }

def live (self : Recovery) (pending : PendingRoute) (now : UInt64) : Bool :=
  !self.revoked && decide (now < pending.deadlineMs)

/-- Sources that keep their table while a route in it is live. -/
def sources (self : Recovery) (now : UInt64) (exports : Export) : OrdMap IpNet UInt32 :=
  if !exports.automaticSources then OrdMap.empty
  else
    (self.rules.filter fun rule =>
      (!exports.views.any fun view => view.source == some rule.source) &&
        self.journal.pending.any fun pending =>
          pending.route.table == rule.table && self.live pending now).foldl
      (fun held rule => held.insert rule.source rule.table) OrdMap.empty

def keep (self : Recovery) (route : RouteIdentity) (confirmed : List TableKey) (now : UInt64) : Bool :=
  !confirmed.contains ⟨route.table, route.destination⟩ &&
    self.journal.pending.any fun pending => pending.route == route && self.live pending now

def writeRequest (self : Recovery) : Option Journal :=
  if self.path then some self.journal else none

theorem writeRequest_eq_some {self : Recovery} {journal : Journal}
    (requested : self.writeRequest = some journal) : journal = self.journal := by
  unfold writeRequest at requested
  split at requested
  · exact (Option.some.inj requested).symm
  · cases requested

/-- What a reconciliation leaves pending, and the journal to write. -/
def applied (self : Recovery) (current : List RouteIdentity) (confirmed : List TableKey)
    (now : UInt64) : Recovery × Option Journal :=
  let pending := self.journal.pending.filter fun pending =>
    !self.revoked && decide (now < pending.deadlineMs) && current.contains pending.route &&
      !confirmed.contains ⟨pending.route.table, pending.route.destination⟩
  let next :=
    { self with
      journal := { self.journal with pending := pending }
      dirty := self.dirty || self.journal.pending.length != pending.length }
  (next, if next.dirty then next.writeRequest else none)

def saved (self : Recovery) : Recovery := { self with dirty := false }

/-- `recovery_interfaces`: routes of a changed scope or of an excluded interface expire
at once. -/
def restrict (self : Recovery) (config : Config) (indices : List UInt32) : Recovery :=
  { self with
    journal :=
      { self.journal with
        pending := self.journal.pending.map fun pending =>
          if self.journal.exportScope != some config.scope ||
              !indices.contains pending.route.outputInterface then
            { pending with deadlineMs := 0 }
          else pending }
    dirty := true }

end Recovery

def eligibleRule (rule : RuleIdentity) (exports : Export) : Bool :=
  exports.manageRules &&
    ((exports.views.any fun view =>
        view.source == some rule.source && view.table == rule.table &&
          exports.rulePriority view == rule.priority) ||
      (exports.automaticSources && decide (exports.sourceTableBase ≤ rule.table) &&
        (!exports.views.any fun view => view.table == rule.table) &&
        exports.rulePriority (ExportView.plain rule.table (some rule.source)) == rule.priority))

/-- The routes that `begin_recovery` adopts; `indices` are the interfaces that the
configuration matches. -/
def eligibleRoute (config : Config) (indices : List UInt32) (rules : List RuleIdentity)
    (route : RouteIdentity) : Bool :=
  !route.unreachable && decide (DYNAMIC_PRIORITY_BASE ≤ route.priority) &&
    decide (route.priority < DYNAMIC_PRIORITY_BASE + INFINITY.toUInt32) &&
    indices.contains route.outputInterface &&
    ((config.exports.views.any fun view => view.table == route.table) ||
      rules.any fun rule => rule.table == route.table)

/-! ## What is kept and held -/

theorem live_iff {recovery : Recovery} {pending : PendingRoute} {now : UInt64} :
    recovery.live pending now = true ↔ recovery.revoked = false ∧ now < pending.deadlineMs := by
  simp [Recovery.live]

theorem keep_iff {recovery : Recovery} {route : RouteIdentity} {confirmed : List TableKey}
    {now : UInt64} :
    recovery.keep route confirmed now = true ↔
      (⟨route.table, route.destination⟩ : TableKey) ∉ confirmed ∧
        ∃ pending ∈ recovery.journal.pending, pending.route = route ∧
          recovery.live pending now = true := by
  simp only [Recovery.keep, Bool.and_eq_true, Bool.not_eq_true', List.contains_eq_mem,
    decide_eq_false_iff_not, List.any_eq_true, beq_iff_eq]

theorem applied_pending {recovery : Recovery} {current : List RouteIdentity}
    {confirmed : List TableKey} {now : UInt64} {pending : PendingRoute} :
    pending ∈ (recovery.applied current confirmed now).1.journal.pending ↔
      pending ∈ recovery.journal.pending ∧ recovery.live pending now = true ∧
        pending.route ∈ current ∧ (⟨pending.route.table, pending.route.destination⟩ : TableKey) ∉
          confirmed := by
  simp only [Recovery.applied, Recovery.live, List.mem_filter, Bool.and_eq_true,
    List.contains_eq_mem, decide_eq_true_eq, Bool.not_eq_true', decide_eq_false_iff_not, and_assoc]

section Held
variable {recovery : Recovery} {exports : Export} {now : UInt64} {source : IpNet} {table : UInt32}

/-- Recovery holds a source's table for a rule of it while a route of that table lives. -/
def Recovery.holds (recovery : Recovery) (exports : Export) (now : UInt64) (rule : RuleIdentity) :
    Prop :=
  exports.automaticSources = true ∧ rule ∈ recovery.rules ∧
    (∀ view ∈ exports.views, view.source ≠ some rule.source) ∧
    ∃ pending ∈ recovery.journal.pending, pending.route.table = rule.table ∧
      recovery.live pending now = true

theorem holds_of_get? (found : (recovery.sources now exports).get? source = some table) :
    ∃ rule, recovery.holds exports now rule ∧ rule.source = source ∧ rule.table = table := by
  unfold Recovery.sources at found
  cases automatic : exports.automaticSources with
  | false => simp [automatic] at found
  | true =>
    simp only [automatic, Bool.not_true, Bool.false_eq_true, if_false] at found
    rw [OrdMap.get?_foldl_put RuleIdentity.source RuleIdentity.table, OrdMap.get?_empty,
      Option.or_none] at found
    obtain ⟨rule, chosen, rfl⟩ := Option.map_eq_some_iff.mp found
    have member := List.mem_filter.mp (List.mem_reverse.mp (List.mem_of_find?_eq_some chosen))
    have named : rule.source = source := by simpa using List.find?_some chosen
    refine ⟨rule, ⟨automatic, member.1, ?_⟩, named, rfl⟩
    simpa using member.2

theorem containsKey_sources :
    (recovery.sources now exports).containsKey source = true ↔
      ∃ rule, recovery.holds exports now rule ∧ rule.source = source := by
  constructor
  · intro contained
    obtain ⟨table, found⟩ := OrdMap.containsKey_iff.mp contained
    obtain ⟨rule, holds, named, -⟩ := holds_of_get? found
    exact ⟨rule, holds, named⟩
  · rintro ⟨rule, ⟨automatic, listed, unviewed, live⟩, rfl⟩
    unfold Recovery.sources
    simp only [automatic, Bool.not_true, Bool.false_eq_true, if_false]
    rw [OrdMap.containsKey, OrdMap.get?_foldl_put RuleIdentity.source RuleIdentity.table,
      OrdMap.get?_empty, Option.or_none, Option.isSome_map, List.find?_isSome]
    refine ⟨rule, List.mem_reverse.mpr (List.mem_filter.mpr ⟨listed, ?_⟩), by simp⟩
    simpa using ⟨unviewed, live⟩

end Held

end BabelRs.Linux
