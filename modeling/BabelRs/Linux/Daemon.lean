import BabelRs.Lib.Run
import BabelRs.Linux.Attempt

/-!
# The exporter's process and its journal

Models the life of `LinuxExporter` around its attempts: `begin_recovery` at a start,
attempts that stop after any of their netlink operations, `recovery_interfaces` and
`update_export` of a live reload, and the revocation of a shutdown.  Each is one step.  The
apply lock keeps them apart, except for `update_export`, which does not take it: an attempt
works on the export and the recovery that it has read at its start, and an update during an
attempt is the step behind it.  A process ends with the next start; the journal file and the
kernel stay.  A journal write happens or does not.
-/

set_option autoImplicit false

namespace BabelRs.Linux

open Lib

structure World where
  kernel : Kernel
  file : Journal
  exporter : Exporter

/-- `LinuxExporter::new`. -/
def Exporter.idle (exports : Export) : Exporter := ⟨exports, OrdMap.empty, Recovery.default⟩

inductive DaemonEvent where
  | start (config : Config) (indices : List UInt32) (now : UInt64)
  /-- `issued` operations are executed; a `finished` attempt goes on to the journal. -/
  | attempt (attempt : Attempt) (issued : Nat) (finished written : Bool)
  | interfaces (config : Config) (indices : List UInt32) (written : Bool)
  | update (exports : Export)
  | revoke
  | outside (kernel : Kernel)

namespace World

def withRecovery (world : World) (recovery : Recovery) : World :=
  { world with exporter := { world.exporter with recovery := recovery } }

/-- `JournalWriter::save`, and `saved` behind it. -/
def save (world : World) (recovery : Recovery) (write : Option Journal) (written : Bool) : World :=
  match write with
  | none => world.withRecovery recovery.saved
  | some journal =>
    if written then { world.withRecovery recovery.saved with file := journal }
    else world.withRecovery recovery

def start (host : Host) (world : World) (config : Config) (indices : List UInt32) (now : UInt64) :
    World :=
  let recovery := beginRecovery host config indices now world.kernel world.file
  { world with
    file := recovery.journal
    exporter := { Exporter.idle config.exports with recovery := recovery } }

/-- The first operations of an attempt, and the allocations that it has made by then. -/
def attempted (world : World) (attempt : Attempt) (issued : Nat) : World :=
  { world with
    kernel := world.kernel.runAll ((applyLocked world.exporter attempt world.kernel).1.take issued)
    exporter := { world.exporter with allocated := (resolvedViews world.exporter attempt).2 } }

/-- What an attempt tells recovery: nothing unless it got to its end. -/
def outcome (world : World) (attempt : Attempt) (issued : Nat) (finished : Bool) :
    Option (List RouteIdentity × List TableKey) :=
  match (applyLocked world.exporter attempt world.kernel).2 with
  | .error _ => none
  | .ok told =>
    if finished && decide ((applyLocked world.exporter attempt world.kernel).1.length ≤ issued) then
      some told
    else none

def attempt (world : World) (attempt : Attempt) (issued : Nat) (finished written : Bool) : World :=
  match world.outcome attempt issued finished with
  | none => world.attempted attempt issued
  | some (current, confirmed) =>
    let next := world.exporter.recovery.applied current confirmed attempt.now
    (world.attempted attempt issued).save next.1 next.2 written

def interfaces (world : World) (config : Config) (indices : List UInt32) (written : Bool) : World :=
  let recovery := world.exporter.recovery.restrict config indices
  world.save recovery recovery.writeRequest written

def update (world : World) (exports : Export) : World :=
  { world with
    exporter := { world.exporter with exports := exports, recovery := world.exporter.recovery.revoke } }

def step (host : Host) (world : World) : DaemonEvent → World
  | .start config indices now => world.start host config indices now
  | .attempt attempt issued finished written => world.attempt attempt issued finished written
  | .interfaces config indices written => world.interfaces config indices written
  | .update exports => world.update exports
  | .revoke => world.withRecovery world.exporter.recovery.revoke
  | .outside kernel => { world with kernel := kernel }

end World

/-- The runs of the exporter's process and its successors from an arbitrary kernel and
journal file. -/
abbrev WorldRun (host : Host) (allowed : World → DaemonEvent → Prop) :
    List (DaemonEvent × List Unit) → World → Prop :=
  Run (fun world => ∃ exports, world.exporter = Exporter.idle exports)
    fun world event _ after => allowed world event ∧ after = world.step host event

/-! ## What the steps do -/

variable (recovery : Recovery) (write : Option Journal)

section Steps
variable {host : Host} {world : World}

@[simp] theorem World.kernel_save (written : Bool) :
    (world.save recovery write written).kernel = world.kernel := by
  unfold World.save
  split
  · rfl
  · split <;> rfl

/-- A save changes nothing but the dirty flag of the recovery it is given. -/
theorem World.exporter_save (written : Bool) :
    ∃ dirty, (world.save recovery write written).exporter =
      { world.exporter with recovery := { recovery with dirty := dirty } } := by
  unfold World.save
  split
  · exact ⟨false, rfl⟩
  · split
    · exact ⟨false, rfl⟩
    · exact ⟨recovery.dirty, rfl⟩

theorem World.exporter_interfaces (world : World) (config : Config) (indices : List UInt32)
    (written : Bool) :
    ∃ dirty, (world.interfaces config indices written).exporter = { world.exporter with
      recovery := { world.exporter.recovery.restrict config indices with dirty := dirty } } :=
  World.exporter_save _ _ written

theorem World.file_save (written : Bool) :
    (world.save recovery write written).file = world.file ∨
      ∃ journal, write = some journal ∧ (world.save recovery write written).file = journal := by
  unfold World.save
  split
  · exact Or.inl rfl
  · split
    · exact Or.inr ⟨_, rfl, rfl⟩
    · exact Or.inl rfl

theorem World.outcome_some {attempt : Attempt} {issued : Nat} {finished : Bool}
    {told : List RouteIdentity × List TableKey}
    (found : world.outcome attempt issued finished = some told) :
    (applyLocked world.exporter attempt world.kernel).2 = .ok told ∧
      (applyLocked world.exporter attempt world.kernel).1.take issued =
        (applyLocked world.exporter attempt world.kernel).1 := by
  unfold World.outcome at found
  cases result : (applyLocked world.exporter attempt world.kernel).2 with
  | error failure => simp [result] at found
  | ok outcome =>
    simp only [result] at found
    split at found
    · next complete =>
      obtain rfl := Option.some.inj found
      exact ⟨rfl, List.take_of_length_le (of_decide_eq_true (Bool.and_eq_true_iff.mp complete).2)⟩
    · cases found

/-- What an attempt does to the exporter: it allocates, and at its end it drops pending
routes. -/
theorem World.attempt_cases (attempt : Attempt) (issued : Nat) (finished written : Bool) :
    (world.attempt attempt issued finished written).kernel =
        world.kernel.runAll ((applyLocked world.exporter attempt world.kernel).1.take issued) ∧
      (world.outcome attempt issued finished = none ∧
          (world.attempt attempt issued finished written).file = world.file ∧
          (world.attempt attempt issued finished written).exporter =
            { world.exporter with allocated := (resolvedViews world.exporter attempt).2 } ∨
        ∃ current confirmed dirty,
          world.outcome attempt issued finished = some (current, confirmed) ∧
          (world.attempt attempt issued finished written).exporter =
            { world.exporter with
              allocated := (resolvedViews world.exporter attempt).2
              recovery :=
                { (world.exporter.recovery.applied current confirmed attempt.now).1 with
                  dirty := dirty } } ∧
          ((world.attempt attempt issued finished written).file = world.file ∨
            (world.attempt attempt issued finished written).file =
              (world.exporter.recovery.applied current confirmed attempt.now).1.journal)) := by
  cases told : world.outcome attempt issued finished with
  | none =>
    simp only [World.attempt, told]
    exact ⟨rfl, Or.inl ⟨trivial, rfl, rfl⟩⟩
  | some outcome =>
    obtain ⟨current, confirmed⟩ := outcome
    simp only [World.attempt, told]
    refine ⟨World.kernel_save _ _ _, Or.inr ?_⟩
    obtain ⟨dirty, shape⟩ := (world.attempted attempt issued).exporter_save
      (world.exporter.recovery.applied current confirmed attempt.now).1
      (world.exporter.recovery.applied current confirmed attempt.now).2 written
    refine ⟨current, confirmed, dirty, rfl, shape, (World.file_save _ _ _).imp id ?_⟩
    rintro ⟨journal, write, stored⟩
    rw [stored]
    simp only [Recovery.applied] at write ⊢
    split at write
    · exact Recovery.writeRequest_eq_some write
    · cases write

end Steps

/-! ## Recovery fades -/

/-- Within one process recovery only loses what it has: routes are confirmed, expire or
are rejected, and a revocation stays. -/
structure Fades (later earlier : Recovery) : Prop where
  rules : later.rules = earlier.rules
  pending : ∀ entry ∈ later.journal.pending, ∃ old ∈ earlier.journal.pending,
    old.route = entry.route ∧ entry.deadlineMs ≤ old.deadlineMs
  revoked : earlier.revoked = true → later.revoked = true

namespace Fades

variable {later earlier : Recovery}

theorem refl : Fades recovery recovery :=
  ⟨rfl, fun entry member => ⟨entry, member, rfl, UInt64.le_refl _⟩, id⟩

theorem trans {middle : Recovery} (second : Fades later middle) (first : Fades middle earlier) :
    Fades later earlier where
  rules := second.rules.trans first.rules
  pending := by
    intro entry member
    obtain ⟨between, listed, same, bound⟩ := second.pending entry member
    obtain ⟨old, before, sameOld, boundOld⟩ := first.pending between listed
    exact ⟨old, before, sameOld.trans same, UInt64.le_trans bound boundOld⟩
  revoked := fun before => second.revoked (first.revoked before)

theorem active (fades : Fades later earlier) (current : later.revoked = false) :
    earlier.revoked = false := by
  by_contra before
  rw [fades.revoked (by simpa using before)] at current
  cases current

theorem live (fades : Fades later earlier) {entry : PendingRoute} {now before : UInt64}
    (member : entry ∈ later.journal.pending) (alive : later.live entry now = true)
    (ordered : before ≤ now) :
    ∃ old ∈ earlier.journal.pending, old.route = entry.route ∧ earlier.live old before = true := by
  obtain ⟨old, listed, same, bound⟩ := fades.pending entry member
  rw [live_iff] at alive
  exact ⟨old, listed, same, live_iff.mpr ⟨fades.active alive.1,
    UInt64.lt_of_le_of_lt ordered (UInt64.lt_of_lt_of_le alive.2 bound)⟩⟩

theorem holds (fades : Fades later earlier) {exports : Export} {now before : UInt64}
    {rule : RuleIdentity} (ordered : before ≤ now) (held : later.holds exports now rule) :
    earlier.holds exports before rule := by
  obtain ⟨automatic, listed, unviewed, entry, member, same, alive⟩ := held
  obtain ⟨old, before, sameRoute, aliveBefore⟩ := fades.live member alive ordered
  exact ⟨automatic, fades.rules ▸ listed, unviewed, old, before, by rw [sameRoute, same], aliveBefore⟩

end Fades

section Fading
variable {host : Host} {world : World}

def DaemonEvent.isStart : DaemonEvent → Bool
  | .start _ _ _ => true
  | _ => false

theorem step_fades (event : DaemonEvent) (running : event.isStart = false) :
    Fades (world.step host event).exporter.recovery world.exporter.recovery := by
  cases event with
  | start config indices now => cases running
  | attempt attempt issued finished written =>
    obtain ⟨-, ⟨-, -, shape⟩ | ⟨current, confirmed, dirty, -, shape, -⟩⟩ :=
      world.attempt_cases attempt issued finished written
    · rw [World.step, shape]
      exact Fades.refl _
    · rw [World.step, shape]
      exact ⟨rfl, fun entry member => ⟨entry, (applied_pending.mp member).1, rfl, UInt64.le_refl _⟩,
        id⟩
  | interfaces config indices written =>
    obtain ⟨dirty, shape⟩ := world.exporter_interfaces config indices written
    rw [World.step, shape]
    refine ⟨rfl, fun entry member => ?_, id⟩
    obtain ⟨old, before, rfl⟩ := List.mem_map.mp member
    refine ⟨old, before, ?_⟩
    split
    · exact ⟨rfl, UInt64.zero_le⟩
    · exact ⟨rfl, UInt64.le_refl _⟩
  | update exports =>
    exact ⟨rfl, fun entry member => ⟨entry, member, rfl, UInt64.le_refl _⟩, fun _ => rfl⟩
  | revoke => exact ⟨rfl, fun entry member => ⟨entry, member, rfl, UInt64.le_refl _⟩, fun _ => rfl⟩
  | outside kernel => exact Fades.refl _

/-- A new export comes with a revocation. -/
theorem step_exports (event : DaemonEvent) (running : event.isStart = false)
    (current : (world.step host event).exporter.recovery.revoked = false) :
    (world.step host event).exporter.exports = world.exporter.exports := by
  cases event with
  | start config indices now => cases running
  | attempt attempt issued finished written =>
    obtain ⟨-, ⟨-, -, shape⟩ | ⟨_, _, _, -, shape, -⟩⟩ :=
      world.attempt_cases attempt issued finished written
    all_goals rw [World.step, shape]
  | interfaces config indices written =>
    obtain ⟨dirty, shape⟩ := world.exporter_interfaces config indices written
    rw [World.step, shape]
  | update exports => cases current
  | revoke => rfl
  | outside kernel => rfl

end Fading

/-! ## Recovered state -/

/-- What `begin_recovery` has checked of the state in use: pending routes have the
priority of a finite metric, and rules are those that the export could have made. -/
structure Recovered (exporter : Exporter) : Prop where
  finite : ∀ pending ∈ exporter.recovery.journal.pending,
    pending.route.priority < DYNAMIC_PRIORITY_BASE + INFINITY.toUInt32
  eligible : exporter.recovery.revoked = false →
    ∀ rule ∈ exporter.recovery.rules, eligibleRule rule exporter.exports = true

section Recovered
variable {host : Host}

theorem idle_recovered (exports : Export) : Recovered (Exporter.idle exports) where
  finite := fun _ member => absurd member List.not_mem_nil
  eligible := fun _ _ member => absurd member List.not_mem_nil

theorem begin_recovered (config : Config) (indices : List UInt32) (now : UInt64) (kernel : Kernel)
    (previous : Journal) :
    Recovered { Exporter.idle config.exports with
      recovery := beginRecovery host config indices now kernel previous } where
  finite := by
    intro pending member
    simp only [beginRecovery, Recovery.load, List.mem_map] at member
    obtain ⟨route, listed, rfl⟩ := member
    have checked := (List.mem_filter.mp listed).2
    simp only [eligibleRoute, Bool.and_eq_true, decide_eq_true_eq] at checked
    exact checked.1.1.2
  eligible := by
    intro _ rule member
    simp only [beginRecovery, Recovery.load] at member
    split at member
    · cases member
    · exact (List.mem_filter.mp member).2

theorem step_recovered {world : World} (recovered : Recovered world.exporter) (event : DaemonEvent) :
    Recovered (world.step host event).exporter := by
  cases running : event.isStart with
  | true =>
    cases event with
    | start config indices now => exact begin_recovered config indices now _ _
    | _ => cases running
  | false =>
    have fades : Fades (world.step host event).exporter.recovery world.exporter.recovery :=
      step_fades event running
    constructor
    · intro entry member
      obtain ⟨old, before, same, -⟩ := fades.pending entry member
      rw [← same]
      exact recovered.finite old before
    · intro current rule member
      rw [step_exports event running current]
      exact recovered.eligible (fades.active current) rule (fades.rules ▸ member)

theorem WorldRun.recovered {allowed : World → DaemonEvent → Prop}
    {history : List (DaemonEvent × List Unit)} {world : World}
    (run : WorldRun host allowed history world) : Recovered world.exporter := by
  refine run.invariant (fun _ world => Recovered world.exporter) ?_ ?_
  · rintro world ⟨exports, fresh⟩
    rw [fresh]
    exact idle_recovered exports
  · rintro _ world event _ _ before ⟨-, rfl⟩
    exact step_recovered before event

/-- A held table is one that automatic allocation could have given. -/
theorem held_outside {exporter : Exporter} {attempt : Attempt} (recovered : Recovered exporter) {source : IpNet} {table : UInt32}
    (found : (heldSources exporter attempt).get? source = some table) :
    exporter.exports.sourceTableBase ≤ table ∧
      table ∉ exporter.exports.views.map ExportView.table := by
  obtain ⟨rule, ⟨-, listed, unviewed, pending, -, -, live⟩, rfl, rfl⟩ := holds_of_get? found
  have eligible := recovered.eligible (live_iff.mp live).1 rule listed
  simp only [eligibleRule, Bool.and_eq_true, Bool.or_eq_true, List.any_eq_true, beq_iff_eq,
    Bool.not_eq_true', decide_eq_true_eq] at eligible
  rcases eligible.2 with ⟨view, member, ⟨named, -⟩, -⟩ | ⟨⟨⟨-, above⟩, clear⟩, -⟩
  · exact absurd named (unviewed view member)
  · refine ⟨above, fun taken => ?_⟩
    obtain ⟨view, member, same⟩ := List.mem_map.mp taken
    have uses := List.any_eq_false.mp clear view member
    simp [same] at uses

end Recovered

end BabelRs.Linux
