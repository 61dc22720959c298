import BabelRs.Lib.ExpiringLog
import BabelRs.Safety.Stages

/-!
# The source table is the memory of what was advertised

Every handler records exactly the finite Updates it emits, in emission order, and
only the garbage collection of a tick removes entries.  So the table is the fold
of a log of advertisements and ticks, and each entry is what that log remembers.
-/

set_option autoImplicit false

namespace BabelRs

open Lib Lib.Effect

/-- Advertised distances and source garbage collections, in order. -/
abbrev Memo := LogEntry (RouteKey × RouterId) Distance UInt64

namespace SourceTable

def apply (table : SourceTable) : Memo → SourceTable
  | .write source distance time => table.maintain source.1 source.2 distance time
  | .sweep now => table.retain fun _ source => decide (source.expiresMs ≥ now)

/-- The age past which a sweep at `now` removes an entry last written at `time`. -/
def expired (time now : UInt64) : Bool := decide (satAdd time sourceGcTimeMs < now)

/-- `maintain_source`'s rule: a distance replaces a stored one it is feasible against. -/
def keepBetter (stored new : Distance) : Distance :=
  if new.feasibleAgainst stored then new else stored

/-- The entry a lifetime leaves in the table. -/
def remembered : List (Distance × UInt64) → Option SourceEntry
  | [] => none
  | first :: rest =>
    some
      { distance := (rest.map Prod.fst).foldl keepBetter first.1
        expiresMs := satAdd ((rest.getLast?.getD first).2) sourceGcTimeMs }

theorem maintain_eq (table : SourceTable) (key : RouteKey) (routerId : RouterId)
    (distance : Distance) (now : UInt64) :
    table.maintain key routerId distance now =
      table.insert (key, routerId)
        ⟨keepBetter ((table.get? (key, routerId)).elim distance SourceEntry.distance) distance,
          satAdd now sourceGcTimeMs⟩ := by
  unfold maintain keepBetter Distance.feasibleAgainst
  cases table.get? (key, routerId) <;> rfl

theorem keepBetter_self (distance : Distance) : keepBetter distance distance = distance := by
  simp [keepBetter]

theorem remembered_concat (life : List (Distance × UInt64)) (distance : Distance) (now : UInt64) :
    remembered (life ++ [(distance, now)]) =
      some ⟨keepBetter ((remembered life).elim distance SourceEntry.distance) distance,
        satAdd now sourceGcTimeMs⟩ := by
  cases life with
  | nil => simp [remembered, keepBetter_self]
  | cons first rest => simp [remembered]

theorem filter_unexpired (entry : SourceEntry) (now : UInt64) :
    (some entry).filter (fun source => decide (source.expiresMs ≥ now)) =
      if entry.expiresMs < now then none else some entry := by
  by_cases gone : entry.expiresMs < now
  · simp [Option.filter_some, gone]
  · simp [Option.filter_some, gone, UInt64.not_lt.mp gone]

/-- A sweep keeps an entry exactly when its last write has not expired. -/
theorem remembered_sweep (life : List (Distance × UInt64)) (now : UInt64) :
    (remembered life).filter (fun source => decide (source.expiresMs ≥ now)) =
      remembered (if life.getLast?.any fun last => expired last.2 now then [] else life) := by
  cases life with
  | nil => rfl
  | cons first rest =>
    have last : (first :: rest).getLast? = some (rest.getLast?.getD first) := by
      simp [List.getLast?_cons]
    rw [remembered, filter_unexpired, last, Option.any_some]
    by_cases gone : satAdd (rest.getLast?.getD first).2 sourceGcTimeMs < now
    · have swept : expired (rest.getLast?.getD first).2 now = true := decide_eq_true gone
      rw [if_pos gone, if_pos swept, remembered]
    · have kept : ¬ expired (rest.getLast?.getD first).2 now = true := by
        simpa only [expired, decide_eq_true_eq] using gone
      rw [if_neg gone, if_neg kept, remembered]

/-- The table built from a log holds, for every source, what the log remembers. -/
theorem get?_foldl_apply (log : List Memo) (source : RouteKey × RouterId) :
    (log.foldl apply AssocMap.empty).get? source = remembered (lifetime expired source log) := by
  induction log using List.reverseRecOn with
  | nil => rfl
  | append_singleton log entry ih =>
    rw [List.foldl_append, List.foldl_cons, List.foldl_nil, lifetime_concat]
    cases entry with
    | write name distance time =>
      obtain ⟨key, routerId⟩ := name
      rw [apply, maintain_eq, AssocMap.get?_insert]
      by_cases here : (key, routerId) = source
      · subst here
        rw [if_pos rfl, ih]
        simp only [lifetimeStep, if_true, remembered_concat]
      · rw [if_neg here, ih]
        simp only [lifetimeStep, if_neg here]
    | sweep now =>
      rw [apply, AssocMap.get?_retain, ih, remembered_sweep, lifetimeStep]

end SourceTable

namespace Engine

variable {P M : Type} {now : UInt64}
variable {actions : List Action}

/-! ## Recording -/

/-- The source table after some output is the table before it with every finite
Update noted. -/
def Recorded (now : UInt64) (s : Engine P M) (actions : List Action) (t : Engine P M) : Prop :=
  t.feasible = (sentUpdates actions).foldl (SourceTable.note now) s.feasible

theorem recorded_chains (now : UInt64) : Chains (Recorded (P := P) (M := M) now) where
  refl := fun _ => rfl
  trans := by
    intro s middle t first second left right
    unfold Recorded at left right ⊢
    rw [sentUpdates_append, List.foldl_append, ← left, right]

theorem Recorded.silent {s t : Engine P M} (same : t.feasible = s.feasible)
    (none : sentUpdates actions = []) :
    Recorded now s actions t := by
  rw [Recorded, none, same]
  rfl

section Parts
variable {s t : Engine P M}

theorem Reselects.recorded (reselects : Reselects now s actions t) : Recorded now s actions t := by
  cases reselects with
  | skipped => exact Recorded.silent rfl rfl
  | taken order => exact reselect_recorded order now s

theorem Output.recorded {ticks : Bool} (output : Output ticks now s actions t) :
    Recorded now s actions t := by
  cases output.coda with
  | announced announces => exact announces.recorded
  | _ => exact Recorded.silent rfl rfl

theorem utterances_recorded {ticks : Bool} (utterances : Steps (Utterance ticks now) s actions t) :
    Recorded now s actions t :=
  (utterances_announces utterances : Announces nothingLost now s actions t).recorded

theorem Edit.recorded {before : Engine P M} {event : Event P}
    (edit : Edit before event s actions t) : Recorded now s actions t := by
  cases edit <;> exact Recorded.silent rfl rfl

theorem edited_recorded {before : Engine P M} {event : Event P} {ticks : Bool}
    (phase : Phase (Edit before event) ticks now s actions t) : Recorded now s actions t :=
  phase.fold (recorded_chains now) Edit.recorded Reselects.recorded Output.recorded

end Parts

/-! ## The packet handler -/

section Receive
variable [NeighborMetric M] {s t : Engine P M} {neighbour : NeighborKey}

theorem UpdateEffect.recorded {update : ResolvedUpdate} {outcome : UpdateOutcome P M}
    (effect : UpdateEffect neighbour now update s outcome) :
    Recorded now s outcome.actions outcome.engine := by
  cases effect with
  | announced announces _ => exact announces.recorded
  | retractedAll _ _ => exact Recorded.silent rfl rfl
  | retracted _ _ _ => exact Recorded.silent rfl rfl
  | rejected finite _ =>
    refine Recorded.silent ?_ rfl
    simp only [rejectByPolicy]
    split <;> rfl
  | limited _ => exact Recorded.silent rfl rfl
  | stored _ _ _ _ _ _ _ requests =>
    rcases requests with ⟨announces, _⟩ | ⟨_, answers⟩
    · exact announces.recorded
    · exact answers.recorded

theorem TlvEffect.recorded {tlv : Tlv} {changed : Bool}
    (effect : TlvEffect neighbour now tlv s actions t changed) : Recorded now s actions t := by
  cases effect with
  | announced announces _ => exact announces.recorded
  | bumped _ _ announces _ => exact announces.recorded
  | updated _ _ effect => exact effect.recorded

variable [MetricProfile P M]

theorem PacketPhase.recorded {tlvs : List Tlv} (phase : PacketPhase neighbour now tlvs s actions t) :
    Recorded now s actions t := by
  refine phase.fold (recorded_chains now) (fun observation => ?_)
    (fun utterance => utterances_recorded (.single utterance)) (fun {tlv} _ order state => ?_)
    Reselects.recorded
  · obtain ⟨rfl, senses⟩ := observation.senses
    exact Recorded.silent senses.feasible rfl
  · obtain ⟨_, _, effect⟩ := receiveTlv_effect order neighbour now tlv state
    exact effect.recorded

end Receive

/-! ## The other handlers -/

section Handlers
variable (order : HashOrder) [NeighborMetric M] [MetricProfile P M]

theorem Stage.recorded {s t : Engine P M} (stage : Stage false order now s actions t) :
    Recorded now s actions t := by
  cases stage with
  | adjusted change => exact Recorded.silent change.reconfigures.feasible rfl
  | invalidated => exact Recorded.silent rfl rfl
  | @purged middle change =>
    have chosen := reselect_recorded order now middle
    rwa [change.reconfigures.feasible] at chosen
  | reset interface policy => exact (when_reselects order _ _).recorded
  | said utterance => exact utterances_recorded (.single utterance)
  | ticked ticking => cases ticking

theorem handleValidated_recorded (event : Event P) (received : event.received = none)
    (plain : event.editsOrigins = false) (calm : event.ticks = false) :
    Meets (Recorded (P := P) (M := M) event.now) (handleValidated order event) := by
  intro s
  have stages := handleValidated_stages order event received plain s
  rw [calm] at stages
  exact stages.fold (recorded_chains event.now) (Stage.recorded order)

/-- A tick sweeps, then records what it sends. -/
theorem tick_recorded (s : Engine P M) :
    (tick order now s).1.feasible =
      (sentUpdates (tick order now s).2).foldl (SourceTable.note now)
        (s.feasible.retain fun _ source => decide (source.expiresMs ≥ now)) := by
  have chains := recorded_chains (P := P) (M := M) now
  obtain ⟨delta, chosen, report, reselects, reports, settled⟩ := tickSettled_parts order now s
  have reported := (conclusions_outputs (reports true)).fold chains Output.recorded
  have recorded := chains.trans (chains.trans reselects.recorded reported)
    (utterances_recorded (tickOutput_utters order s _))
  rw [← settled] at recorded
  rw [← ageState_feasible order now s]
  exact recorded

end Handlers

/-! ## The log of a run -/

def advert (now : UInt64) (sent : SentUpdate) : Option Memo :=
  match sent.update.key, sent.update.routerId with
  | some key, some routerId =>
    if sent.update.metric != INFINITY then
      some (.write (key, routerId) ⟨sent.update.seqno, sent.update.metric⟩ now)
    else none
  | _, _ => none

def adverts (now : UInt64) (actions : List Action) : List Memo :=
  (sentUpdates actions).filterMap (advert now)

theorem note_eq_advert (table : SourceTable) (sent : SentUpdate) :
    table.note now sent = (advert now sent).elim table table.apply := by
  cases named : sent.update.key <;> cases routed : sent.update.routerId <;>
    simp only [SourceTable.note, advert, named, routed, Option.elim_none]
  split <;> rfl

theorem foldl_adverts (actions : List Action) (table : SourceTable) :
    (adverts now actions).foldl SourceTable.apply table =
      (sentUpdates actions).foldl (SourceTable.note now) table := by
  unfold adverts
  induction sentUpdates actions generalizing table with
  | nil => rfl
  | cons sent rest ih =>
    rw [List.foldl_cons, ← ih, note_eq_advert, List.filterMap_cons]
    cases advert now sent <;> rfl

theorem adverts_append (first second : List Action) :
    adverts now (first ++ second) = adverts now first ++ adverts now second := by
  simp [adverts]

section Log
variable [NeighborMetric M] [MetricProfile P M]

/-- What one event adds to the log: its finite Updates in emission order, and the
sweep of the tick it runs at the place where that tick runs. -/
def eventMemos (order : HashOrder) (event : Event P) (s : Engine P M) : List Memo :=
  match event with
  | .tick now => .sweep now :: adverts now (handleValidated order event s).2
  | .interfaceUp _ _ now => .sweep now :: adverts now (handleValidated order event s).2
  | .interfaceUpWithPolicy _ _ _ now => .sweep now :: adverts now (handleValidated order event s).2
  | .interfacePolicyChanged interface policy resetMetric now =>
    match s.interfaces.get? interface with
    | none => []
    | some state =>
      let changed := policyChangedBeforeTick order interface policy
        (state.policy.controlTransport != policy.controlTransport) resetMetric now s
      adverts now changed.2 ++ .sweep now :: adverts now (tick order now changed.1).2
  | _ => adverts event.now (handleValidated order event s).2

def isWrite : Memo → Bool
  | .write _ _ _ => true
  | .sweep _ => false

omit [NeighborMetric M] [MetricProfile P M] in
theorem filter_adverts (actions : List Action) :
    (adverts now actions).filter isWrite = adverts now actions := by
  refine List.filter_eq_self.mpr fun memo member => ?_
  obtain ⟨sent, _, made⟩ := List.mem_filterMap.mp member
  simp only [advert] at made
  split at made
  · split at made
    · cases made
      rfl
    · cases made
  · cases made

/-- The writes of the log are the finite Updates of the emitted actions, in order. -/
theorem eventMemos_writes (order : HashOrder) (event : Event P) (s : Engine P M) :
    (eventMemos order event s).filter isWrite =
      adverts event.now (handleValidated order event s).2 := by
  cases event with
  | interfacePolicyChanged interface policy resetMetric now =>
    simp only [eventMemos, handleValidated, interfacePolicyChanged, Event.now]
    cases s.interfaces.get? interface with
    | none => rfl
    | some state =>
      simp only [List.filter_append, filter_adverts, List.filter_cons, isWrite,
        andThen_apply, adverts_append, Bool.false_eq_true, if_false]
  | tick now => simp [eventMemos, Event.now, isWrite, filter_adverts]
  | interfaceUp interface localAddresses now =>
    simp [eventMemos, Event.now, isWrite, filter_adverts]
  | interfaceUpWithPolicy interface localAddresses policy now =>
    simp [eventMemos, Event.now, isWrite, filter_adverts]
  | _ => exact filter_adverts _

/-- Attaching an interface, ticking and asking for routes: a sweep, then records. -/
theorem interfaceUp_recorded (order : HashOrder) (interface : InterfaceName)
    (localAddresses : List IpAddr) (policy : InterfacePolicy P) (s : Engine P M) :
    (interfaceUp order interface localAddresses policy now s).1.feasible =
      (sentUpdates (interfaceUp order interface localAddresses policy now s).2).foldl
        (SourceTable.note now)
        (s.feasible.retain fun _ source => decide (source.expiresMs ≥ now)) := by
  have ticked : (tick order now _).1.feasible = _ :=
    tick_recorded order (s.attachInterface interface localAddresses policy now)
  have attached : Adjusts now s _ := .attached interface localAddresses policy
  rw [attached.reconfigures.feasible] at ticked
  have request : ∀ u : Engine P M, sentUpdates
      (((u.interfaces.get? interface).map fun state =>
        wildcardRequest interface state now).toList) = [] := by
    intro u
    cases u.interfaces.get? interface <;> rfl
  simp only [interfaceUp, andThen_apply, update_apply, emit_apply,
    List.nil_append, sentUpdates_append, request, List.append_nil]
  exact ticked

/-- One event changes the source table by its log entries and nothing else. -/
theorem handleValidated_memos (order : HashOrder) (event : Event P) (s : Engine P M) :
    (handleValidated order event s).1.feasible =
      (eventMemos order event s).foldl SourceTable.apply s.feasible := by
  cases event with
  | tick now =>
    simp only [eventMemos, List.foldl_cons, foldl_adverts]
    exact tick_recorded order s
  | interfaceUp interface localAddresses now =>
    simp only [eventMemos, List.foldl_cons, foldl_adverts]
    exact interfaceUp_recorded order interface localAddresses _ s
  | interfaceUpWithPolicy interface localAddresses policy now =>
    simp only [eventMemos, List.foldl_cons, foldl_adverts]
    exact interfaceUp_recorded order interface localAddresses policy s
  | interfacePolicyChanged interface policy resetMetric now =>
    simp only [eventMemos, handleValidated, interfacePolicyChanged]
    cases s.interfaces.get? interface with
    | none => rfl
    | some state =>
      simp only [List.foldl_append, List.foldl_cons, foldl_adverts, andThen_apply]
      have changed : Recorded now s _ _ := (policyChangedBeforeTick_stages order interface policy
        (state.policy.controlTransport != policy.controlTransport) resetMetric s).fold
          (recorded_chains now) (Stage.recorded order)
      rw [← changed]
      exact tick_recorded order _
  | packetReceived interface source packet now =>
    simp only [eventMemos, foldl_adverts]
    exact (receive_phase order interface source packet _ s).recorded
  | packetReceivedWithTimestamp interface source packet now timestamp =>
    simp only [eventMemos, foldl_adverts]
    exact (receive_phase order interface source packet timestamp s).recorded
  | originate key metric now =>
    simp only [eventMemos, foldl_adverts]
    exact edited_recorded (originate_phase order key metric s)
  | withdraw key now =>
    simp only [eventMemos, foldl_adverts]
    exact edited_recorded (removeOrigin_phase order key _ s)
  | replaceOrigins origins now =>
    simp only [eventMemos, foldl_adverts]
    exact edited_recorded (replaceOrigins_phase order origins s)
  | _ =>
    simp only [eventMemos, foldl_adverts]
    exact handleValidated_recorded order _ rfl rfl rfl s

def MemoStep (s : Engine P M) (event : Event P) (memos : List Memo) (t : Engine P M) : Prop :=
  ∃ order actions, tryHandle order event s = .ok (t, actions) ∧ memos = eventMemos order event s

def logOf (history : List (Event P × List Memo)) : List Memo := history.flatMap Prod.snd

theorem feasible_eq_log {history : List (Event P × List Memo)} {engine : Engine P M}
    (run : Run Starts MemoStep history engine) :
    engine.feasible = (logOf history).foldl SourceTable.apply AssocMap.empty := by
  refine run.invariant (fun history engine =>
    engine.feasible = (logOf history).foldl SourceTable.apply AssocMap.empty) ?_ ?_
  · intro s starts
    obtain ⟨config, _, rfl⟩ := starts.eq_initial
    rfl
  · intro history s event memos t same taken
    obtain ⟨order, actions, handled, rfl⟩ := taken
    obtain ⟨_, _, rfl⟩ := tryHandle_ok handled
    simp only [logOf, List.flatMap_append, List.flatMap_cons, List.flatMap_nil, List.append_nil,
      List.foldl_append]
    rw [← logOf, ← same]
    exact handleValidated_memos order event s

/-- The source table is exactly the memory of what was advertised.  An entry
exists iff its source was advertised and no tick ran more than the collection
time after its last advertisement; its distance is the fold of the distances
advertised since the entry was last created. -/
theorem feasible_is_memory_of_advertisements {history : List (Event P × List Memo)}
    {engine : Engine P M} (run : Run Starts MemoStep history engine) (key : RouteKey)
    (routerId : RouterId) :
    ((∃ source, engine.feasible.get? (key, routerId) = some source) ↔
      ∃ older distance time newer,
        logOf history = older ++ .write (key, routerId) distance time :: newer ∧
        (∀ other at_, LogEntry.write (key, routerId) other at_ ∉ newer) ∧
        ∀ now, LogEntry.sweep now ∈ newer → now.toNat ≤ time.toNat + 180000) ∧
    engine.feasible.get? (key, routerId) =
      SourceTable.remembered (lifetime SourceTable.expired (key, routerId) (logOf history)) := by
  have stored : engine.feasible.get? (key, routerId) =
      SourceTable.remembered (lifetime SourceTable.expired (key, routerId) (logOf history)) := by
    rw [feasible_eq_log run, SourceTable.get?_foldl_apply]
  refine ⟨?_, stored⟩
  have fresh : ∀ time now, SourceTable.expired time now = false ↔
      now.toNat ≤ time.toNat + 180000 := by
    intro time now
    have clock := now.toNat_lt
    rw [SourceTable.expired, decide_eq_false_iff_not, UInt64.not_lt, UInt64.le_iff_toNat_le,
      toNat_satAdd]
    have span : sourceGcTimeMs.toNat = 180000 := rfl
    rw [span, u64Max]
    omega
  have present : (∃ source, engine.feasible.get? (key, routerId) = some source) ↔
      lifetime SourceTable.expired (key, routerId) (logOf history) ≠ [] := by
    rw [stored]
    cases lifetime SourceTable.expired (key, routerId) (logOf history) with
    | nil => simp [SourceTable.remembered]
    | cons first rest => simp [SourceTable.remembered]
  rw [present, lifetime_ne_nil_iff]
  simp only [LastWrite, fresh]
  constructor
  · rintro ⟨distance, time, older, newer, facts⟩
    exact ⟨older, distance, time, newer, facts⟩
  · rintro ⟨older, distance, time, newer, facts⟩
    exact ⟨distance, time, older, newer, facts⟩

end Log

section Concrete
open Conformance

/-- A link and one origin: the log holds the tick of the link and one advertisement. -/
def originSteps : List (Event BuiltinProfile) :=
  [.interfaceUp (link 1) [] 0, .originate destination 0 1]

theorem feasible_memory_of_one_origin :
    ∃ (history : List (Event BuiltinProfile × List Memo)) (engine : Harness),
      Run Starts MemoStep history engine ∧ history.map Prod.fst = originSteps ∧
        ∃ source, engine.feasible.get? (destination, nodeId 0) = some source := by
  have starts : Starts (initial (harness (nodeId 0)) : Harness) := ⟨harness (nodeId 0), rfl⟩
  have up : Run Starts (MemoStep (P := BuiltinProfile) (M := BuiltinNeighbor)) _ _ :=
    .step (.start starts)
      ⟨HashOrder.stored, _, tryHandle_valid (.interfaceUp (link 1) [] 0) rfl _ _, rfl⟩
  have originated : Run Starts (MemoStep (P := BuiltinProfile) (M := BuiltinNeighbor)) _ _ :=
    .step up
      ⟨HashOrder.stored, _, tryHandle_valid (.originate destination 0 1) rfl _ _, rfl⟩
  refine ⟨_, _, originated, rfl, ?_⟩
  exact (feasible_is_memory_of_advertisements originated destination (nodeId 0)).1.mpr
    ⟨[.sweep 0], ⟨7, 0⟩, 1, [], by decide +kernel, by simp, by simp⟩

end Concrete

end Engine

end BabelRs
