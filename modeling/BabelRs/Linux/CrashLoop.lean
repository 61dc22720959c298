import BabelRs.Linux.Convergence

/-!
# Deadlines across restarts

Runs of many processes over one kernel and one journal file.  Beside the world a run
carries the deadlines that recovery has given to routes, for as long as a route stays
installed and no attempt confirms it.  A deadline survives restarts in the journal: it
binds all later processes if every start takes over the journalled routes that it finds
installed, and if no rejection is lost before it is written.
-/

set_option autoImplicit false

namespace BabelRs.Linux

open Lib

def Kernel.installs (kernel : Kernel) (protocol : UInt8) (identity : RouteIdentity) : Bool :=
  (kernel.ownedRoutes protocol).any fun route =>
    route.kind == .unicast && routeIdentity route == identity

def World.confirms (world : World) : DaemonEvent → List TableKey
  | .attempt attempt issued finished _ => ((world.outcome attempt issued finished).map Prod.snd).getD []
  | _ => []

/-- The deadlines that an event gives; `after` is the world behind it. -/
def World.gives (after : World) : DaemonEvent → List PendingRoute
  | .start _ _ _ => after.exporter.recovery.journal.pending
  | .interfaces _ _ _ => after.exporter.recovery.journal.pending
  | _ => []

/-- The deadlines that count behind an event. -/
def given (protocol : UInt8) (world after : World) (before : List PendingRoute)
    (event : DaemonEvent) : List PendingRoute :=
  (before ++ after.gives event).filter fun entry =>
    after.kernel.installs protocol entry.route &&
      !(world.confirms event).contains ⟨entry.route.table, entry.route.destination⟩

def OneProtocol (protocol : UInt8) : DaemonEvent → Prop
  | .start config _ _ => config.exports.protocol = protocol
  | .update exports => exports.protocol = protocol
  | _ => True

abbrev LoopRun (host : Host) (protocol : UInt8) (allowed : World → DaemonEvent → Prop) :
    List (DaemonEvent × List Unit) → World × List PendingRoute → Prop :=
  Run (fun state => ∃ exports : Export, exports.protocol = protocol ∧
      state.1.exporter = Exporter.idle exports ∧ state.2 = [])
    fun state event _ after => (OneProtocol protocol event ∧ allowed state.1 event) ∧
      after.1 = state.1.step host event ∧
      after.2 = given protocol state.1 after.1 state.2 event

/-- A start forgets nothing: the routes of a journal it can use that are still installed
are eligible, and the file has the rejections of the process before. -/
def Remembers (host : Host) (world : World) : DaemonEvent → Prop
  | .start config indices _ =>
    (world.file.compatible host config = true → ∀ entry ∈ world.file.pending,
      world.kernel.installs config.exports.protocol entry.route = true →
        eligibleRoute config indices (recoveredRules config world.kernel) entry.route = true) ∧
    ∀ rejected ∈ world.exporter.recovery.journal.pending, rejected.deadlineMs = 0 →
      ∀ entry ∈ world.file.pending, entry.route = rejected.route → entry.deadlineMs = 0
  | _ => True

/-! ## The invariant -/

def Journal.Of (journal : Journal) (host : Host) (protocol : UInt8) : Prop :=
  journal.version = 1 ∧ journal.boot = host.boot ∧ journal.namesp = host.namesp ∧
    journal.protocol = protocol

/-- The given deadlines bind the process in memory, and its successor through the file. -/
structure Binds (host : Host) (protocol : UInt8) (world : World) (before : List PendingRoute) :
    Prop where
  numbered : world.exporter.exports.protocol = protocol
  recovered : Recovered world.exporter
  installed : ∀ entry ∈ before, world.kernel.installs protocol entry.route = true
  remembered : ∀ entry ∈ before,
    ∃ pending ∈ world.exporter.recovery.journal.pending, pending.route = entry.route
  bounded : ∀ entry ∈ before, ∀ pending ∈ world.exporter.recovery.journal.pending,
    pending.route = entry.route → pending.deadlineMs ≤ entry.deadlineMs
  single : ∀ first ∈ world.exporter.recovery.journal.pending,
    ∀ second ∈ world.exporter.recovery.journal.pending, first.route = second.route →
      first.deadlineMs = second.deadlineMs
  stored : ∀ pending ∈ world.exporter.recovery.journal.pending,
    ∃ entry ∈ world.file.pending, entry.route = pending.route
  -- The file may be behind on rejections only.
  agrees : ∀ pending ∈ world.exporter.recovery.journal.pending, ∀ entry ∈ world.file.pending,
    entry.route = pending.route → entry.deadlineMs = pending.deadlineMs ∨ pending.deadlineMs = 0
  journal : world.exporter.recovery.journal.pending ≠ [] →
    world.exporter.recovery.journal.Of host protocol ∧ world.file.Of host protocol

variable {event : DaemonEvent} {entry : PendingRoute}

section Installed
variable {kernel : Kernel} {protocol : UInt8} {identity : RouteIdentity}

theorem installs_iff : kernel.installs protocol identity = true ↔
    ∃ route ∈ kernel.ownedRoutes protocol, route.kind = .unicast ∧ routeIdentity route = identity := by
  simp [Kernel.installs]

theorem mem_given {world after : World} {before : List PendingRoute} :
    entry ∈ given protocol world after before event ↔
      (entry ∈ before ∨ entry ∈ after.gives event) ∧
        after.kernel.installs protocol entry.route = true ∧
        (⟨entry.route.table, entry.route.destination⟩ : TableKey) ∉ world.confirms event := by
  simp only [given, List.mem_filter, List.mem_append, Bool.and_eq_true, Bool.not_eq_true',
    List.contains_eq_mem, decide_eq_false_iff_not]

end Installed

section Steps
variable {host : Host} {protocol : UInt8} {world : World} {before : List PendingRoute}

variable {config : Config} {indices : List UInt32}

/-- What `begin_recovery` writes down: the eligible installed routes, with a deadline no
later than the journalled one. -/
theorem mem_beginRecovery {now : UInt64} {kernel : Kernel} {previous : Journal} :
    entry ∈ (beginRecovery host config indices now kernel previous).journal.pending ↔
      kernel.installs config.exports.protocol entry.route = true ∧
        eligibleRoute config indices (recoveredRules config kernel) entry.route = true ∧
        entry.deadlineMs = min ((previous.deadlineOf host config entry.route).getD
          (previous.freshDeadline config now)) (previous.freshDeadline config now) := by
  simp only [beginRecovery, Recovery.load, List.mem_map, List.mem_filter, installs_iff, beq_iff_eq]
  constructor
  · rintro ⟨identity, ⟨⟨route, ⟨owned, unicast⟩, rfl⟩, eligible⟩, rfl⟩
    exact ⟨⟨route, owned, unicast, rfl⟩, eligible, rfl⟩
  · rintro ⟨⟨route, owned, unicast, same⟩, eligible, deadline⟩
    refine ⟨entry.route, ⟨⟨route, ⟨owned, unicast⟩, same⟩, eligible⟩, ?_⟩
    rw [← deadline]

/-- A deadline that the journal has for a route is that of one of its entries. -/
theorem deadlineOf_of_mem {previous : Journal} (compatible : previous.compatible host config = true)
    (member : entry ∈ previous.pending) :
    ∃ found ∈ previous.pending, found.route = entry.route ∧
      previous.deadlineOf host config entry.route = some found.deadlineMs := by
  rw [Journal.deadlineOf, if_pos compatible]
  cases search : previous.pending.reverse.find? fun pending => pending.route == entry.route with
  | none =>
    have absent := List.find?_eq_none.mp search entry (List.mem_reverse.mpr member)
    simp at absent
  | some found =>
    refine ⟨found, List.mem_reverse.mp (List.mem_of_find?_eq_some search), ?_, rfl⟩
    simpa using List.find?_some search

theorem start_binds (binds : Binds host protocol world before) {now : UInt64}
    (same : config.exports.protocol = protocol)
    (remembers : Remembers host world (.start config indices now)) :
    Binds host protocol (world.start host config indices now)
      (given protocol world (world.start host config indices now) before
        (.start config indices now)) := by
  obtain ⟨eligible, written⟩ := remembers
  set recovery := beginRecovery host config indices now world.kernel world.file with recoveryEq
  have functional : ∀ first ∈ recovery.journal.pending, ∀ second ∈ recovery.journal.pending,
      first.route = second.route → first.deadlineMs = second.deadlineMs := by
    intro first left second right sameRoute
    rw [(mem_beginRecovery.mp left).2.2, (mem_beginRecovery.mp right).2.2, sameRoute]
  -- A route with a deadline is in the file, so it is taken over and keeps the deadline.
  have carried : ∀ entry ∈ before, world.kernel.installs protocol entry.route = true →
      ∃ pending ∈ recovery.journal.pending, pending.route = entry.route ∧
        pending.deadlineMs ≤ entry.deadlineMs := by
    intro entry told installed
    obtain ⟨old, oldMember, oldRoute⟩ := binds.remembered entry told
    obtain ⟨stored, storedMember, storedRoute⟩ := binds.stored old oldMember
    have compatible : world.file.compatible host config = true := by
      obtain ⟨version, boot, namesp, number⟩ :=
        (binds.journal (List.ne_nil_of_mem oldMember)).2
      simp [Journal.compatible, version, boot, namesp, number, same]
    obtain ⟨found, foundMember, foundRoute, deadline⟩ := deadlineOf_of_mem compatible storedMember
    have bound : found.deadlineMs ≤ entry.deadlineMs := by
      rcases binds.agrees old oldMember found foundMember (foundRoute.trans storedRoute) with
        agreed | rejected
      · rw [agreed]
        exact binds.bounded entry told old oldMember oldRoute
      · rw [written old oldMember rejected found foundMember (foundRoute.trans storedRoute)]
        exact UInt64.zero_le
    have routeEq : stored.route = entry.route := storedRoute.trans oldRoute
    refine ⟨⟨entry.route, min ((world.file.deadlineOf host config entry.route).getD
      (world.file.freshDeadline config now)) (world.file.freshDeadline config now)⟩,
      mem_beginRecovery.mpr ⟨same.symm ▸ installed, ?_, rfl⟩, rfl, ?_⟩
    · rw [← routeEq]
      refine eligible compatible stored storedMember ?_
      rw [routeEq, same]
      exact installed
    · rw [← routeEq, deadline]
      exact UInt64.le_trans Std.min_le_left bound
  refine ⟨same, begin_recovered _ _ _ _ _, ?_, ?_, ?_, functional,
    fun pending member => ⟨pending, member, rfl⟩,
    fun pending left entry right sameRoute => Or.inl (functional entry right pending left sameRoute),
    fun _ => ⟨⟨rfl, rfl, rfl, same⟩, ⟨rfl, rfl, rfl, same⟩⟩⟩
  · exact fun entry told => (mem_given.mp told).2.1
  · intro entry told
    obtain ⟨old | new, installed, -⟩ := mem_given.mp told
    · obtain ⟨pending, member, sameRoute, -⟩ := carried entry old installed
      exact ⟨pending, member, sameRoute⟩
    · exact ⟨entry, new, rfl⟩
  · intro entry told pending member sameRoute
    obtain ⟨old | new, installed, -⟩ := mem_given.mp told
    · obtain ⟨kept, keptMember, keptRoute, bound⟩ := carried entry old installed
      rw [functional pending member kept keptMember (sameRoute.trans keptRoute.symm)]
      exact bound
    · rw [functional pending member entry new sameRoute]
      exact UInt64.le_refl _

/-- At the end of an attempt an installed route that it did not confirm is a kept one. -/
theorem kept_of_finished (binds : Binds host protocol world before) {attempt : Attempt} {issued : Nat}
    {finished : Bool} {current : List RouteIdentity} {confirmed : List TableKey}
    (told : world.outcome attempt issued finished = some (current, confirmed))
    {identity : RouteIdentity}
    (installed : (world.kernel.runAll
      ((applyLocked world.exporter attempt world.kernel).1.take issued)).installs protocol
        identity = true)
    (unconfirmed : (⟨identity.table, identity.destination⟩ : TableKey) ∉ confirmed) :
    identity ∈ current ∧ world.exporter.recovery.keep identity confirmed attempt.now = true := by
  obtain ⟨done, all⟩ := World.outcome_some told
  obtain ⟨views, messages, -, built, ops, outcome⟩ := applyLocked_ok done
  obtain ⟨rfl, rfl⟩ := Prod.mk.inj outcome
  rw [all, ops] at installed
  obtain ⟨route, owned, unicast, same⟩ := installs_iff.mp installed
  rw [← binds.numbered] at owned
  rcases (identities_attempt binds.recovered (routeMessages_carries built)).mp
    (List.mem_map_of_mem owned) with wanted | kept
  · obtain ⟨message, member, messageSame⟩ := List.mem_map.mp wanted
    refine absurd (mem_confirmedBy.mpr ⟨message, member, ?_, ?_⟩) unconfirmed
    · have reachable := congrArg RouteIdentity.unreachable messageSame
      simp only [routeIdentity, unicast] at reachable
      intro unreachable
      rw [unreachable] at reachable
      cases reachable
    · have placed := messageSame.trans same
      exact (congrArg (fun named => (⟨named.table, named.destination⟩ : TableKey)) placed).symm
  · rw [same] at kept
    exact kept

theorem attempt_binds (binds : Binds host protocol world before) (attempt : Attempt) (issued : Nat)
    (finished written : Bool) :
    Binds host protocol (world.attempt attempt issued finished written)
      (given protocol world (world.attempt attempt issued finished written) before
        (.attempt attempt issued finished written)) := by
  have recovered : Recovered (world.step host (.attempt attempt issued finished written)).exporter :=
    step_recovered binds.recovered _
  obtain ⟨kernel, ⟨-, file, shape⟩ | ⟨current, confirmed, dirty, told, shape, file⟩⟩ :=
    world.attempt_cases attempt issued finished written
  · have old : ∀ entry ∈ given protocol world (world.attempt attempt issued finished written) before
        (.attempt attempt issued finished written), entry ∈ before := by
      intro entry member
      exact (mem_given.mp member).1.resolve_right List.not_mem_nil
    refine ⟨?_, recovered, fun entry member => (mem_given.mp member).2.1, ?_, ?_, ?_, ?_, ?_, ?_⟩
    all_goals rw [shape]
    · exact binds.numbered
    · exact fun entry member => binds.remembered entry (old entry member)
    · exact fun entry member => binds.bounded entry (old entry member)
    · exact binds.single
    · rw [file]
      exact binds.stored
    · rw [file]
      exact binds.agrees
    · rw [file]
      exact binds.journal
  · have fewer : ∀ pending ∈ (world.exporter.recovery.applied current confirmed
        attempt.now).1.journal.pending, pending ∈ world.exporter.recovery.journal.pending :=
      fun pending member => (applied_pending.mp member).1
    have kept : ∀ entry ∈ given protocol world (world.attempt attempt issued finished written) before
        (.attempt attempt issued finished written), entry ∈ before ∧
          ∃ pending ∈ (world.exporter.recovery.applied current confirmed
            attempt.now).1.journal.pending, pending.route = entry.route := by
      intro entry member
      obtain ⟨old, installed, unconfirmed⟩ := mem_given.mp member
      rw [kernel] at installed
      simp only [World.confirms, told, Option.map_some, Option.getD_some] at unconfirmed
      obtain ⟨dumped, keeps⟩ := kept_of_finished binds told installed unconfirmed
      obtain ⟨-, pending, listed, named, live⟩ := keep_iff.mp keeps
      refine ⟨old.resolve_right List.not_mem_nil, pending, applied_pending.mpr ⟨listed, live, ?_, ?_⟩,
        named⟩
      · rw [named]
        exact dumped
      · rw [named]
        exact unconfirmed
    refine ⟨?_, recovered, fun entry member => (mem_given.mp member).2.1, ?_, ?_, ?_, ?_, ?_, ?_⟩
    all_goals rw [shape]
    · exact binds.numbered
    · exact fun entry member => (kept entry member).2
    · exact fun entry member pending listed =>
        binds.bounded entry (kept entry member).1 pending (fewer pending listed)
    · exact fun first left second right => binds.single first (fewer _ left) second (fewer _ right)
    · intro pending member
      rcases file with same | same <;> rw [same]
      · exact binds.stored pending (fewer pending member)
      · exact ⟨pending, member, rfl⟩
    · intro pending member entry
      rcases file with same | same <;> rw [same]
      · exact binds.agrees pending (fewer pending member) entry
      · exact fun listed sameRoute =>
          Or.inl (binds.single entry (fewer _ listed) pending (fewer _ member) sameRoute)
    · intro some
      obtain ⟨pending, member⟩ := List.exists_mem_of_ne_nil _ some
      obtain ⟨memory, stored⟩ := binds.journal (List.ne_nil_of_mem (fewer pending member))
      refine ⟨memory, ?_⟩
      rcases file with same | same <;> rw [same]
      · exact stored
      · exact memory

theorem mem_restrict {recovery : Recovery} {pending : PendingRoute} :
    pending ∈ (recovery.restrict config indices).journal.pending ↔
      ∃ old ∈ recovery.journal.pending, old.route = pending.route ∧
        pending.deadlineMs =
          if recovery.journal.exportScope != some config.scope ||
            !indices.contains pending.route.outputInterface then 0 else old.deadlineMs := by
  simp only [Recovery.restrict, List.mem_map]
  constructor
  · rintro ⟨old, member, rfl⟩
    refine ⟨old, member, ?_⟩
    split
    · exact ⟨rfl, rfl⟩
    · exact ⟨rfl, rfl⟩
  · rintro ⟨old, member, same, deadline⟩
    refine ⟨old, member, ?_⟩
    cases pending
    cases old
    simp only at same deadline ⊢
    subst same
    split
    · next rejected => rw [deadline, if_pos rejected]
    · next accepted => rw [deadline, if_neg accepted]

theorem interfaces_binds (binds : Binds host protocol world before) (config : Config)
    (indices : List UInt32) (written : Bool) :
    Binds host protocol (world.interfaces config indices written)
      (given protocol world (world.interfaces config indices written) before
        (.interfaces config indices written)) := by
  have recovered : Recovered (world.step host (.interfaces config indices written)).exporter :=
    step_recovered binds.recovered _
  set restricted := world.exporter.recovery.restrict config indices with restrictedEq
  obtain ⟨dirty, shape⟩ := world.exporter_interfaces config indices written
  have file : (world.interfaces config indices written).file = world.file ∨
      (world.interfaces config indices written).file = restricted.journal := by
    refine (World.file_save _ _ _).imp id ?_
    rintro ⟨journal, write, stored⟩
    exact stored.trans (Recovery.writeRequest_eq_some write)
  have exporter : (world.interfaces config indices written).exporter = _ := shape
  have single : ∀ first ∈ restricted.journal.pending, ∀ second ∈ restricted.journal.pending,
      first.route = second.route → first.deadlineMs = second.deadlineMs := by
    intro first left second right same
    obtain ⟨old, member, sameOld, deadline⟩ := mem_restrict.mp left
    obtain ⟨other, otherMember, sameOther, otherDeadline⟩ := mem_restrict.mp right
    rw [deadline, otherDeadline, same,
      binds.single old member other otherMember (sameOld.trans (same.trans sameOther.symm))]
  have lowered : ∀ pending ∈ restricted.journal.pending,
      ∃ old ∈ world.exporter.recovery.journal.pending, old.route = pending.route ∧
        (pending.deadlineMs = old.deadlineMs ∨ pending.deadlineMs = 0) := by
    intro pending member
    obtain ⟨old, listed, same, deadline⟩ := mem_restrict.mp member
    refine ⟨old, listed, same, ?_⟩
    rw [deadline]
    split
    · exact Or.inr rfl
    · exact Or.inl rfl
  refine ⟨?_, recovered, fun entry member => (mem_given.mp member).2.1, ?_, ?_, ?_, ?_, ?_, ?_⟩
  all_goals rw [exporter]
  · exact binds.numbered
  · intro entry member
    rcases (mem_given.mp member).1 with old | new
    · obtain ⟨pending, listed, same⟩ := binds.remembered entry old
      refine ⟨_, List.mem_map_of_mem listed, ?_⟩
      split <;> exact same
    · simp only [World.gives, exporter] at new
      exact ⟨entry, new, rfl⟩
  · intro entry member pending listed same
    rcases (mem_given.mp member).1 with old | new
    · obtain ⟨kept, keptListed, keptSame, deadline⟩ := lowered pending listed
      rcases deadline with unchanged | rejected
      · rw [unchanged]
        exact binds.bounded entry old kept keptListed (keptSame.trans same)
      · rw [rejected]
        exact UInt64.zero_le
    · simp only [World.gives, exporter] at new
      rw [single pending listed entry new same]
      exact UInt64.le_refl _
  · exact single
  · intro pending member
    rcases file with unchanged | stored
    · rw [unchanged]
      obtain ⟨old, listed, same, -⟩ := lowered pending member
      obtain ⟨entry, inside, sameEntry⟩ := binds.stored old listed
      exact ⟨entry, inside, sameEntry.trans same⟩
    · rw [stored]
      exact ⟨pending, member, rfl⟩
  · intro pending member entry
    rcases file with unchanged | stored
    · rw [unchanged]
      intro inside same
      obtain ⟨old, listed, sameOld, deadline⟩ := lowered pending member
      rcases deadline with equal | rejected
      · rw [equal]
        exact binds.agrees old listed entry inside (same.trans sameOld.symm)
      · exact Or.inr rejected
    · rw [stored]
      exact fun inside same => Or.inl (single entry inside pending member same)
  · intro some
    obtain ⟨pending, member⟩ := List.exists_mem_of_ne_nil _ some
    obtain ⟨old, listed, -, -⟩ := lowered pending member
    obtain ⟨memory, onDisk⟩ := binds.journal (List.ne_nil_of_mem listed)
    refine ⟨memory, ?_⟩
    rcases file with unchanged | stored
    · rw [unchanged]
      exact onDisk
    · rw [stored]
      exact memory

/-- The other events leave the journal as it is, in memory and on disk. -/
theorem quiet_binds (binds : Binds host protocol world before) {after : World}
    (numbered : after.exporter.exports.protocol = protocol) (recovered : Recovered after.exporter)
    (memory : after.exporter.recovery.journal = world.exporter.recovery.journal)
    (file : after.file = world.file) (nothing : after.gives event = []) :
    Binds host protocol after (given protocol world after before event) := by
  have old : ∀ entry ∈ given protocol world after before event, entry ∈ before := by
    intro entry member
    rcases (mem_given.mp member).1 with old | new
    · exact old
    · rw [nothing] at new
      cases new
  refine ⟨numbered, recovered, fun entry member => (mem_given.mp member).2.1, ?_, ?_, ?_, ?_, ?_, ?_⟩
  all_goals rw [memory]
  · exact fun entry member => binds.remembered entry (old entry member)
  · exact fun entry member => binds.bounded entry (old entry member)
  · exact binds.single
  · rw [file]
    exact binds.stored
  · rw [file]
    exact binds.agrees
  · rw [file]
    exact binds.journal

theorem step_binds (binds : Binds host protocol world before) (one : OneProtocol protocol event)
    (remembers : Remembers host world event) :
    Binds host protocol (world.step host event)
      (given protocol world (world.step host event) before event) := by
  have recovered : Recovered (world.step host event).exporter := step_recovered binds.recovered event
  cases event with
  | start config indices now => exact start_binds binds one remembers
  | attempt attempt issued finished written => exact attempt_binds binds attempt issued finished written
  | interfaces config indices written => exact interfaces_binds binds config indices written
  | update exports => exact quiet_binds binds one recovered rfl rfl rfl
  | revoke => exact quiet_binds binds binds.numbered recovered rfl rfl rfl
  | outside kernel => exact quiet_binds binds binds.numbered recovered rfl rfl rfl

/-- No process keeps a route at or behind a deadline that some process has given it,
while the route stays installed and unconfirmed. -/
theorem crash_loops_never_extend {history : List (DaemonEvent × List Unit)}
    {state : World × List PendingRoute} (run : LoopRun host protocol (Remembers host) history state)
    {entry : PendingRoute} (told : entry ∈ state.2) {now : UInt64} (late : entry.deadlineMs ≤ now)
    (confirmed : List TableKey) :
    state.1.exporter.recovery.keep entry.route confirmed now = false := by
  have binds : Binds host protocol state.1 state.2 := by
    refine run.invariant (fun _ state => Binds host protocol state.1 state.2) ?_ ?_
    · rintro ⟨world, before⟩ ⟨exports, numbered, idle, rfl⟩
      have nothing : world.exporter.recovery.journal.pending = [] := by
        rw [idle]
        rfl
      refine ⟨by simp only at idle; rw [idle]; exact numbered, by
        simp only at idle; rw [idle]; exact idle_recovered exports, by simp, by simp, by simp, ?_, ?_,
        ?_, fun some => absurd nothing some⟩
      all_goals rw [nothing]
      all_goals simp
    · rintro _ ⟨world, before⟩ event _ ⟨after, counted⟩ invariant ⟨⟨one, remembers⟩, taken, ghost⟩
      simp only at taken ghost
      subst taken ghost
      exact step_binds invariant one remembers
  by_contra kept
  obtain ⟨-, pending, member, same, live⟩ := keep_iff.mp (Bool.eq_true_of_not_eq_false kept)
  have bound := binds.bounded entry told pending member same
  exact absurd (live_iff.mp live).2 (UInt64.not_lt.mpr (UInt64.le_trans bound late))

end Steps

namespace Fixture

def leftWorld : World := ⟨leftKernel, Journal.default, Exporter.idle automaticExport⟩

def played (events : List DaemonEvent) : World × List PendingRoute :=
  events.foldl (fun state event => (state.1.step host event,
    given 203 state.1 (state.1.step host event) state.2 event)) (leftWorld, [])

theorem played_start {allowed : World → DaemonEvent → Prop} : LoopRun host 203 allowed [] (played []) :=
  Run.start ⟨automaticExport, rfl, rfl, rfl⟩

theorem played_step {allowed : World → DaemonEvent → Prop} {history : List (DaemonEvent × List Unit)}
    {events : List DaemonEvent} (before : LoopRun host 203 allowed history (played events))
    (event : DaemonEvent) (one : OneProtocol 203 event) (fits : allowed (played events).1 event) :
    LoopRun host 203 allowed (history ++ [(event, [])]) (played (events ++ [event])) := by
  rw [played, List.foldl_append]
  exact Run.step before ⟨⟨one, fits⟩, rfl, rfl⟩

/-- The first process gives the route until 301000.  The second one does not match the
interface any more and dies before it deletes the route; the third one matches it again. -/
def forgetting : List DaemonEvent :=
  [.start restarting [7] 1000, .start restarting [] 2000, .start restarting [7] 400000]

theorem forgotten_deadline_is_extended :
    ∃ history, LoopRun host 203 (fun _ _ => True) history (played forgetting) ∧
      ⟨routeIdentity leftRoute, 301000⟩ ∈ (played forgetting).2 ∧
      (played forgetting).1.exporter.recovery.keep (routeIdentity leftRoute) [] 400000 = true :=
  ⟨_, played_step (played_step (played_step played_start (.start restarting [7] 1000) rfl trivial)
      (.start restarting [] 2000) rfl trivial) (.start restarting [7] 400000) rfl trivial,
    by decide +kernel, by decide +kernel⟩

theorem remembered_deadline_stays :
    (played [.start restarting [7] 1000, .start restarting [7] 2000]).1.exporter.recovery.keep
      (routeIdentity leftRoute) [] 301000 = false := by
  have first : Remembers host (played []).1 (.start restarting [7] 1000) :=
    ⟨by decide +kernel, by decide +kernel⟩
  have second : Remembers host (played [.start restarting [7] 1000]).1 (.start restarting [7] 2000) :=
    ⟨by decide +kernel, by decide +kernel⟩
  have told : ⟨routeIdentity leftRoute, 301000⟩ ∈
      (played [.start restarting [7] 1000, .start restarting [7] 2000]).2 := by decide +kernel
  have run := played_step (played_step played_start (.start restarting [7] 1000) rfl first)
    (.start restarting [7] 2000) rfl second
  exact crash_loops_never_extend run told (UInt64.le_refl _) []

end Fixture

end BabelRs.Linux
