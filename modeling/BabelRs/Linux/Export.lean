import BabelRs.Lib.Leading
import BabelRs.Lib.OrdMap
import BabelRs.Model

/-!
# Export configuration

Models the `Export` and `ExportView` sections of the daemon's `config.rs` with their
validation, and the filters of `policy.rs` as far as a view uses them.  Prefix
containment is that of the `ipnet` crate: a prefix contains the addresses and the
prefixes that share its leading bits.
-/

set_option autoImplicit false

namespace BabelRs

open Lib

/-! ## Prefix containment -/

namespace IpNet

/-- `contains` on an address. -/
def contains : IpNet → IpAddr → Bool
  | v4 address len, .v4 other => sameLeading len.val address other
  | v6 address len, .v6 other => sameLeading len.val address other
  | _, _ => false

/-- `contains` on a prefix. -/
def covers : IpNet → IpNet → Bool
  | v4 address len, v4 other otherLen => decide (len.val ≤ otherLen.val) && sameLeading len.val address other
  | v6 address len, v6 other otherLen => decide (len.val ≤ otherLen.val) && sameLeading len.val address other
  | _, _ => false

def network : IpNet → IpAddr
  | v4 address len => .v4 (address &&& (BitVec.allOnes 32 <<< (32 - len.val)))
  | v6 address len => .v6 (address &&& (BitVec.allOnes 128 <<< (128 - len.val)))

instance : LinearOrder IpNet := LinearOrder.lift' code fun _ _ same => code_injective same

variable {outer inner : IpNet} {address : IpAddr}

theorem family_of_contains (inside : outer.contains address = true) :
    outer.isIpv4 = address.isIpv4 := by
  cases outer <;> cases address <;> first | rfl | cases inside

theorem family_of_covers (inside : outer.covers inner = true) : outer.isIpv4 = inner.isIpv4 := by
  cases outer <;> cases inner <;> first | rfl | cases inside

theorem contains_of_covers (wider : outer.covers inner = true)
    (inside : inner.contains address = true) : outer.contains address = true := by
  cases outer <;> cases inner <;> cases address <;>
    first
    | cases wider
    | cases inside
    | exact sameLeading_trans (Bool.and_eq_true_iff.mp wider).2
        (sameLeading_mono (of_decide_eq_true (Bool.and_eq_true_iff.mp wider).1) inside)

theorem contains_network (inside : outer.covers inner = true) :
    outer.contains inner.network = true := by
  cases outer <;> cases inner <;>
    first
    | cases inside
    | exact sameLeading_trans (Bool.and_eq_true_iff.mp inside).2
        (sameLeading_mono (of_decide_eq_true (Bool.and_eq_true_iff.mp inside).1)
          (sameLeading_masked _ _))

/-- Prefixes of one address are nested by length. -/
theorem covers_of_contains (first : outer.contains address = true)
    (second : inner.contains address = true) (shorter : outer.prefixLen ≤ inner.prefixLen) :
    outer.covers inner = true := by
  cases outer <;> cases inner <;> cases address <;>
    first
    | cases first
    | cases second
    | exact Bool.and_eq_true_iff.mpr ⟨decide_eq_true shorter,
        sameLeading_trans first (sameLeading_symm (sameLeading_mono shorter second))⟩

/-- Truncated prefixes of one address are determined by their length. -/
theorem eq_of_contains (first : outer.contains address = true)
    (second : inner.contains address = true) (same : outer.prefixLen = inner.prefixLen)
    (clear : outer.trunc = outer) (otherClear : inner.trunc = inner) : outer = inner := by
  cases outer with
  | v4 outerBits outerLen =>
    cases inner with
    | v4 innerBits innerLen =>
      cases address with
      | v4 bits =>
        obtain rfl : outerLen = innerLen := Fin.ext same
        injection clear with masked
        injection otherClear with otherMasked
        rw [eq_of_sameLeading (sameLeading_trans first (sameLeading_symm second))
          masked.symm otherMasked.symm]
      | v6 bits => cases first
    | v6 innerBits innerLen =>
      cases address with
      | v4 bits => cases second
      | v6 bits => cases first
  | v6 outerBits outerLen =>
    cases inner with
    | v6 innerBits innerLen =>
      cases address with
      | v6 bits =>
        obtain rfl : outerLen = innerLen := Fin.ext same
        injection clear with masked
        injection otherClear with otherMasked
        rw [eq_of_sameLeading (sameLeading_trans first (sameLeading_symm second))
          masked.symm otherMasked.symm]
      | v4 bits => cases first
    | v4 innerBits innerLen =>
      cases address with
      | v4 bits => cases first
      | v6 bits => cases second

end IpNet

/-! ## Filters -/

namespace Policy

inductive Verdict where
  | allow
  | deny
deriving DecidableEq, Repr

inductive MatchMode where
  | exact
  | within
deriving DecidableEq, Repr

structure PrefixMatch where
  net : IpNet
  mode : MatchMode
deriving DecidableEq, Repr

def PrefixMatch.accepts (self : PrefixMatch) (other : IpNet) : Bool :=
  match self.mode with
  | .exact => self.net == other
  | .within => self.net.covers other

structure Rule where
  action : Verdict
  source : Option PrefixMatch
  destination : Option PrefixMatch
  interfaces : Option (List InterfaceName)
  neighbor : Option IpAddr
  locallyOriginated : Option Bool
deriving DecidableEq, Repr

structure Filter where
  default : Verdict
  rules : List Rule
deriving DecidableEq, Repr

def Filter.all : Filter := ⟨.allow, []⟩

/-- An ordinary route has a zero-length source. -/
def effectiveSource (key : RouteKey) : IpNet :=
  key.source.getD (if key.destination.isIpv4 then .v4 0 0 else .v6 0 0)

/-- `allows` of a bare key: a rule with any other condition does not match. -/
def Filter.allowsKey (self : Filter) (key : RouteKey) : Bool :=
  ((self.rules.find? fun rule =>
      (rule.source.all fun matcher => matcher.accepts (effectiveSource key)) &&
        (rule.destination.all fun matcher => matcher.accepts key.destination) &&
        rule.interfaces.isNone && rule.neighbor.isNone && rule.locallyOriginated.isNone).map
    Rule.action).getD self.default == .allow

@[simp] theorem Filter.allowsKey_all (key : RouteKey) : Filter.all.allowsKey key = true := rfl

end Policy

/-! ## Views -/

structure ExportView where
  table : UInt32
  source : Option IpNet
  rulePriority : Option UInt32
  filter : Policy.Filter
deriving DecidableEq, Repr

structure Export where
  protocol : UInt8
  deviceOnly : Bool
  manageRules : Bool
  automatic : Bool
  sourceTableBase : UInt32
  sourceRulePriority : UInt32
  views : List ExportView
deriving DecidableEq, Repr

def ExportView.plain (table : UInt32) (source : Option IpNet) : ExportView :=
  ⟨table, source, none, Policy.Filter.all⟩

inductive ExportConfigError where
  | invalidProtocol
  | noExportViews
  | automaticSourceConfig
  | sourcePriorityRange
  | invalidTable (table : UInt32)
  | ordinaryRulePriority
  | duplicateView (table : UInt32) (source : Option IpNet)
  | duplicateSource (source : IpNet)
  | sharedSourceTable
  | sourceRuleOrder (left right : IpNet)
deriving DecidableEq, Repr

def prefixesOverlap (left right : IpNet) : Bool :=
  left.isIpv4 == right.isIpv4 &&
    (left.contains right.network || right.contains left.network)

theorem prefixesOverlap_of_contains {left right : IpNet} {address : IpAddr}
    (first : left.contains address = true) (second : right.contains address = true) :
    prefixesOverlap left right = true := by
  rw [prefixesOverlap, IpNet.family_of_contains first, IpNet.family_of_contains second]
  simp only [BEq.rfl, Bool.true_and, Bool.or_eq_true]
  rcases Nat.le_total left.prefixLen right.prefixLen with shorter | longer
  · exact Or.inl (IpNet.contains_network (IpNet.covers_of_contains first second shorter))
  · exact Or.inr (IpNet.contains_network (IpNet.covers_of_contains second first longer))

namespace Export

/-- `u32::saturating_add` of the distance from the longest prefix. -/
def defaultPriority (exports : Export) (source : Option IpNet) : UInt32 :=
  UInt32.ofNat (min (exports.sourceRulePriority.toNat + (128 - (source.map IpNet.prefixLen).getD 0))
    (2 ^ 32 - 1))

def rulePriority (exports : Export) (view : ExportView) : UInt32 :=
  view.rulePriority.getD (exports.defaultPriority view.source)

def automaticSources (exports : Export) : Bool := exports.automatic && exports.manageRules

/-! ### Validation -/

/-- The checks of a single view; `seen` and `seenSources` are the sets the loop fills. -/
def validateViews : List ExportView → List (UInt32 × Option IpNet) → List (UInt32 × Bool) →
    Except ExportConfigError Unit
  | [], _, _ => .ok ()
  | view :: rest, seen, seenSources =>
    if view.table = 0 || (253 ≤ view.table && view.table ≤ 255) then
      .error (.invalidTable view.table)
    else if view.source.isNone && view.rulePriority.isSome then .error .ordinaryRulePriority
    else if seen.contains (view.table, view.source) then
      .error (.duplicateView view.table view.source)
    else
      match view.source with
      | none => validateViews rest ((view.table, none) :: seen) seenSources
      | some source =>
        if seenSources.contains (view.table, source.isIpv4) then .error .sharedSourceTable
        else
          validateViews rest ((view.table, some source) :: seen)
            ((view.table, source.isIpv4) :: seenSources)

def validatePair (exports : Export) (left right : ExportView) : Except ExportConfigError Unit :=
  if left.table = right.table ∧ (left.source.isNone ∨ right.source.isNone) then
    .error .sharedSourceTable
  else
    match left.source, right.source with
    | some l, some r =>
      if l = r then .error (.duplicateSource l)
      else if prefixesOverlap l r = true ∧
          ((r.prefixLen < l.prefixLen ∧ exports.rulePriority right ≤ exports.rulePriority left) ∨
            (l.prefixLen < r.prefixLen ∧ exports.rulePriority left ≤ exports.rulePriority right)) then
        .error (.sourceRuleOrder l r)
      else .ok ()
    | _, _ => .ok ()

def validateAgainst (exports : Export) (left : ExportView) : List ExportView → Except ExportConfigError Unit
  | [] => .ok ()
  | right :: rest => do
    exports.validatePair left right
    exports.validateAgainst left rest

def validatePairs (exports : Export) : List ExportView → Except ExportConfigError Unit
  | [] => .ok ()
  | left :: rest => do
    exports.validateAgainst left rest
    exports.validatePairs rest

/-- The export part of `Config::validate`. -/
def validate (exports : Export) : Except ExportConfigError Unit :=
  if exports.protocol = 0 then .error .invalidProtocol
  else if exports.views.isEmpty then .error .noExportViews
  else if exports.automaticSources &&
      (!(256 ≤ exports.sourceTableBase && exports.sourceTableBase ≤ 0x7fffffff) ||
        exports.views.any fun view =>
          view.rulePriority.any fun priority => priority != exports.defaultPriority view.source) then
    .error .automaticSourceConfig
  else if exports.sourceRulePriority = 0 || 32638 < exports.sourceRulePriority ||
      exports.views.any (fun view => view.rulePriority == some 0) then
    .error .sourcePriorityRange
  else do
    validateViews exports.views [] []
    exports.validatePairs exports.views

/-- What validation leaves two views of the list to have in common. -/
structure Apart (exports : Export) (left right : ExportView) : Prop where
  tables : left.table = right.table → left.source.isSome = true ∧ right.source.isSome = true
  sources : ∀ source, left.source = some source → right.source ≠ some source
  ordered : ∀ l r, left.source = some l → right.source = some r → prefixesOverlap l r = true →
    (r.prefixLen < l.prefixLen → exports.rulePriority left < exports.rulePriority right) ∧
      (l.prefixLen < r.prefixLen → exports.rulePriority right < exports.rulePriority left)

/-- What a validated export guarantees. -/
structure Valid (exports : Export) : Prop where
  defaults : exports.automaticSources = true → ∀ view ∈ exports.views,
    exports.rulePriority view = exports.defaultPriority view.source
  base : exports.sourceRulePriority ≤ 32638
  apart : exports.views.Pairwise exports.Apart
  families : exports.views.Pairwise fun left right => ∀ l r, left.source = some l →
    right.source = some r → left.table = right.table → l.isIpv4 ≠ r.isIpv4

variable {exports : Export} {left right : ExportView}

theorem validatePair_ok (valid : exports.validatePair left right = .ok ()) :
    exports.Apart left right := by
  unfold validatePair at valid
  split at valid
  · cases valid
  · next separate =>
    have tables : left.table = right.table →
        left.source.isSome = true ∧ right.source.isSome = true := by
      intro same
      simp only [same, true_and, not_or, Option.isNone_iff_eq_none] at separate
      exact ⟨Option.isSome_iff_ne_none.mpr separate.1, Option.isSome_iff_ne_none.mpr separate.2⟩
    split at valid
    · next l r hasLeft hasRight =>
      split_ifs at valid with same order
      refine ⟨tables, ?_, ?_⟩
      · intro source here there
        rw [hasLeft] at here
        rw [hasRight] at there
        exact same ((Option.some.inj here).trans (Option.some.inj there).symm)
      · intro l' r' here there overlap
        obtain rfl := Option.some.inj (hasLeft.symm.trans here)
        obtain rfl := Option.some.inj (hasRight.symm.trans there)
        simp only [overlap, true_and, not_or, not_and, UInt32.not_le] at order
        exact order
    · next other =>
      refine ⟨tables, ?_, ?_⟩
      · intro source here there
        exact other source source here there
      · intro l r here there
        exact absurd there (other l r here)

theorem validateAgainst_ok {others : List ExportView}
    (valid : exports.validateAgainst left others = .ok ()) :
    ∀ right ∈ others, exports.Apart left right := by
  induction others with
  | nil => simp
  | cons right rest ih =>
    cases here : exports.validatePair left right with
    | error failure => simp [validateAgainst, here, bind, Except.bind] at valid
    | ok _ =>
      simp only [validateAgainst, here, bind, Except.bind] at valid
      intro other member
      rcases List.mem_cons.mp member with rfl | later
      · exact validatePair_ok here
      · exact ih valid other later

theorem validatePairs_ok {views : List ExportView} (valid : exports.validatePairs views = .ok ()) :
    views.Pairwise exports.Apart := by
  induction views with
  | nil => exact List.Pairwise.nil
  | cons left rest ih =>
    cases here : exports.validateAgainst left rest with
    | error failure => simp [validatePairs, here, bind, Except.bind] at valid
    | ok _ =>
      simp only [validatePairs, here, bind, Except.bind] at valid
      exact List.pairwise_cons.mpr ⟨validateAgainst_ok here, ih valid⟩

/-- Source views of one family get past the loop with different tables only. -/
theorem validateViews_ok {views : List ExportView} {seen : List (UInt32 × Option IpNet)}
    {seenSources : List (UInt32 × Bool)} (valid : validateViews views seen seenSources = .ok ()) :
    (∀ view ∈ views, ∀ source, view.source = some source →
        (view.table, source.isIpv4) ∉ seenSources) ∧
      views.Pairwise fun left right => ∀ l r, left.source = some l → right.source = some r →
        left.table = right.table → l.isIpv4 ≠ r.isIpv4 := by
  induction views generalizing seen seenSources with
  | nil => exact ⟨by simp, List.Pairwise.nil⟩
  | cons view rest ih =>
    simp only [validateViews] at valid
    split at valid
    · cases valid
    split at valid
    · cases valid
    split at valid
    · cases valid
    split at valid
    · next ordinary =>
      obtain ⟨fresh, apart⟩ := ih valid
      refine ⟨?_, List.pairwise_cons.mpr ⟨?_, apart⟩⟩
      · intro other member source named
        rcases List.mem_cons.mp member with rfl | later
        · rw [ordinary] at named
          cases named
        · exact fresh other later source named
      · intro right _ l r here
        rw [ordinary] at here
        cases here
    · next own hasSource =>
      split at valid
      · cases valid
      · next unseen =>
        obtain ⟨fresh, apart⟩ := ih valid
        refine ⟨?_, List.pairwise_cons.mpr ⟨?_, apart⟩⟩
        · intro other member source named
          rcases List.mem_cons.mp member with rfl | later
          · obtain rfl := Option.some.inj (hasSource.symm.trans named)
            simpa using unseen
          · exact fun inside => fresh other later source named (List.mem_cons_of_mem _ inside)
        · intro right member l r here there sameTable sameFamily
          obtain rfl := Option.some.inj (hasSource.symm.trans here)
          apply fresh right member r there
          rw [← sameTable, ← sameFamily]
          exact List.mem_cons_self

theorem validate_ok (valid : exports.validate = .ok ()) : exports.Valid := by
  unfold validate at valid
  split_ifs at valid with protocol empty sources priorities
  simp only [Bool.or_eq_true, decide_eq_true_eq, not_or, UInt32.not_lt] at priorities
  cases listed : validateViews exports.views [] [] with
  | error failure => simp [listed, bind, Except.bind] at valid
  | ok _ =>
    simp only [listed, bind, Except.bind] at valid
    refine ⟨fun automatic view member => ?_, priorities.1.2, validatePairs_ok valid,
      (validateViews_ok listed).2⟩
    simp only [automatic, Bool.true_and, Bool.or_eq_true, not_or, List.any_eq_true, not_exists,
      not_and] at sources
    have own := sources.2 view member
    unfold rulePriority
    cases explicit : view.rulePriority with
    | none => rfl
    | some priority => simpa [explicit] using own

theorem prefixesOverlap_comm (left right : IpNet) :
    prefixesOverlap left right = prefixesOverlap right left := by
  rw [prefixesOverlap, prefixesOverlap, Bool.beq_comm, Bool.or_comm]

theorem Apart.symm (apart : exports.Apart left right) :
    exports.Apart right left where
  tables := fun same => (apart.tables same.symm).symm
  sources := fun source here there => apart.sources source there here
  ordered := by
    intro l r here there overlap
    rw [prefixesOverlap_comm] at overlap
    exact (apart.ordered r l there here overlap).symm

/-- Two views of a validated list, in either order. -/
theorem Valid.apart_of_ne (valid : exports.Valid) (first : left ∈ exports.views)
    (second : right ∈ exports.views) (different : left ≠ right) :
    exports.Apart left right := by
  have : Std.Symm exports.Apart := ⟨fun _ _ apart => apart.symm⟩
  exact valid.apart.forall first second different

/-- Views that share a table are source views of both families. -/
theorem Valid.families_of_ne (valid : exports.Valid) (first : left ∈ exports.views)
    (second : right ∈ exports.views) (different : left ≠ right) (same : left.table = right.table) :
    ∃ l r, left.source = some l ∧ right.source = some r ∧ l.isIpv4 ≠ r.isIpv4 := by
  have : Std.Symm fun a b : ExportView => ∀ l r, a.source = some l → b.source = some r →
      a.table = b.table → l.isIpv4 ≠ r.isIpv4 :=
    ⟨fun _ _ apart l r here there tables => (apart r l there here tables.symm).symm⟩
  obtain ⟨hasLeft, hasRight⟩ := (valid.apart_of_ne first second different).tables same
  obtain ⟨l, leftSource⟩ := Option.isSome_iff_exists.mp hasLeft
  obtain ⟨r, rightSource⟩ := Option.isSome_iff_exists.mp hasRight
  exact ⟨l, r, leftSource, rightSource,
    valid.families.forall first second different l r leftSource rightSource same⟩

end Export

end BabelRs
