import BabelRs.Safety.Policy

/-!
# The calls of `reselect`

Which states an event reselects in, read off the handlers.  Nothing but `reselect`
writes the selected routes and the maps of the switching hysteresis, so they are carried
from one call to the next.
-/

set_option autoImplicit false

namespace BabelRs

open Lib Lib.Effect

namespace Engine

variable {P M : Type} {now : UInt64}
variable {s t : Engine P M} {actions : List Action}

/-- The calls made on the way from one state to another, each in the state it finds. -/
def Calls (order : HashOrder) (now : UInt64) : Engine P M → List (Engine P M) → Engine P M → Prop
  | s, [], t => t.switching = s.switching
  | s, call :: rest, t => call.switching = s.switching ∧ Calls order now (reselect order now call).1 rest t

section Calls
variable {order : HashOrder}

theorem calls_congr {start : Engine P M} {calls : List (Engine P M)}
    (same : start.switching = s.switching) (made : Calls order now start calls t) :
    Calls order now s calls t := by
  cases calls with
  | nil => exact made.trans same
  | cons call rest => exact ⟨made.1.trans same, made.2⟩

theorem calls_append {middle : Engine P M} {first second : List (Engine P M)}
    (early : Calls order now s first middle) (late : Calls order now middle second t) :
    Calls order now s (first ++ second) t := by
  induction first generalizing s with
  | nil => exact calls_congr early late
  | cons call rest ih => exact ⟨early.1, ih early.2⟩

theorem calls_when (condition : Bool) {u : Engine P M} (before : u.switching = s.switching)
    (after : t.switching =
      (when (fun _ => condition) (reselect order now) u).1.switching) :
    Calls order now s (if condition then [u] else []) t := by
  cases condition with
  | true => exact ⟨before, after⟩
  | false => exact after.trans before

end Calls

/-! ## Everything else keeps the hysteresis -/

theorem switching_chains : Chains fun (s : Engine P M) (_ : List Action) t =>
    t.switching = s.switching :=
  ⟨fun _ => rfl, fun first second => second.trans first⟩

section Output
variable {ticks : Bool}

theorem utterances_switching (utterances : Steps (Utterance ticks now) s actions t) :
    t.switching = s.switching :=
  (utterances_announces utterances : Announces nothingLost now s actions t).quiet.switching

theorem conclusions_switching (coda : Steps (Conclusion ticks now) s actions t) :
    t.switching = s.switching :=
  (outputs_sameRoutes (conclusions_outputs coda)).switching

theorem sendUpdates_switching (only : Option RouteKey) (interface : Option InterfaceName)
    (timing : Option SendTiming) (s : Engine P M) :
    (sendUpdates now only interface timing s).1.switching = s.switching :=
  utterances_switching (sendUpdates_utters only interface timing s : Steps (Utterance false now) s _ _)

theorem edits_switching {before : Engine P M} {event : Event P}
    (edits : Steps (Edit before event) s actions t) : t.switching = s.switching :=
  edits.fold switching_chains fun edit => by cases edit <;> rfl

end Output

section Metric
variable [NeighborMetric M]

variable (order : HashOrder) (interface : InterfaceName) (neighbour : NeighborKey)

/-! ## The calls of an event -/

variable [MetricProfile P M]

/-- `tick` reselects when a table it ages may have changed a route, or a switch is pending. -/
def tickReselections (order : HashOrder) (now : UInt64) (s : Engine P M) : List (Engine P M) :=
  if (s.ageState order now).routesMayHaveChanged ||
      !(s.ageState order now).engine.pendingSwitches.entries.isEmpty then
    [(s.ageState order now).engine]
  else []

/-- `receive` reselects behind its TLV loop, when that changed an input. -/
def receiveReselections (order : HashOrder) (interface : InterfaceName) (source : IpAddr)
    (packet : Packet) (now : UInt64) (receiveTimestamp : UInt32) (s : Engine P M) :
    List (Engine P M) :=
  match s.interfaces.get? interface with
  | none => []
  | some state =>
    if state.policy.controlTransport.multicast.isIpv4 != source.isIpv4 then []
    else if !s.neighbours.containsKey ⟨interface, source⟩ &&
        decide (s.neighbours.len ≥ s.config.limits.maxNeighbors) && packet.hasHello then []
    else
      let observed := s.observe state ⟨interface, source⟩ packet now receiveTimestamp
      let greeted := when (fun _ => observed.2.2) (ihuAction ⟨interface, source⟩ now none)
        observed.1
      let processed := forEach packet.tlvs (receiveTlv order ⟨interface, source⟩ now)
        ⟨greeted.1, observed.2.1, .empty⟩
      if processed.1.routesChanged then [processed.1.engine] else []

/-- The state whose changed metrics `interface_policy_changed` reselects with. -/
def resetState (interface : InterfaceName) (policy : InterfacePolicy P) (now : UInt64)
    (s : Engine P M) : Engine P M × Bool :=
  recomputeCandidateMetrics none
    { s with
      neighbours := s.neighbours.mapValues fun key neighbour =>
        if key.interface = interface then resetNeighbour interface policy now key neighbour
        else neighbour }

/-- A changed interface policy reselects without the neighbours of a former transport, with
reset metrics, and in its concluding tick. -/
def policyReselections (order : HashOrder) (interface : InterfaceName) (policy : InterfacePolicy P)
    (resetMetric : Bool) (now : UInt64) (s : Engine P M) : List (Engine P M) :=
  match s.interfaces.get? interface with
  | none => []
  | some state =>
    let transportChanged := state.policy.controlTransport != policy.controlTransport
    let installed := s.installPolicy interface policy now
    let rehoused := when (fun _ => transportChanged)
      (andThen (Effect.update (detachNeighbours interface)) (reselect order now)) installed
    let reset := rehoused.1.resetState interface policy now
    (if transportChanged then [installed.detachNeighbours interface] else []) ++
      (if resetMetric && reset.2 then [reset.1] else []) ++
      tickReselections order now
        (policyChangedBeforeTick order interface policy transportChanged resetMetric now s).1

/-- The states in which an event calls `reselect`, in order. -/
def reselections (order : HashOrder) (event : Event P) (s : Engine P M) : List (Engine P M) :=
  match event with
  | .interfaceUp interface localAddresses now => tickReselections order now
      (s.attachInterface interface localAddresses s.defaultInterfacePolicy now)
  | .interfaceUpWithPolicy interface localAddresses policy now =>
    tickReselections order now (s.attachInterface interface localAddresses policy now)
  | .interfacePolicyChanged interface policy resetMetric now =>
    policyReselections order interface policy resetMetric now s
  | .interfaceAddressesChanged _ _ _ => []
  | .interfaceDown interface _ => [s.removeInterface interface]
  | .packetReceived interface source packet now =>
    receiveReselections order interface source packet now (timestampUs now) s
  | .packetReceivedWithTimestamp interface source packet now receivedTimestampUs =>
    receiveReselections order interface source packet now receivedTimestampUs s
  | .originate key metric now =>
    if (s.originated.get? key).any fun origin => origin.metric == metric then []
    else [(installOrigin key metric now s).1]
  | .withdraw key _ => [{ s with originated := s.originated.remove key }]
  | .replaceOrigins origins _ =>
    if s.originsUnchanged origins then []
    else
      [(installOrigins origins (s.originated.entries.any fun entry =>
        (origins.get? entry.1).any fun metric => decide (metric > entry.2.metric)) s).1]
  | .replaceRoutePolicy policy _ => [s.applyRoutePolicy policy]
  | .tick now => tickReselections order now s

theorem tick_calls (now : UInt64) (s : Engine P M) :
    Calls order now s (s.tickReselections order now) (tick order now s).1 := by
  have aged : (s.ageState order now).engine.switching = s.switching :=
    (ageState_prelude order s).fold switching_chains fun prelude => by
      cases prelude with
      | sensed silent => exact silent.senses.switching
      | collected => rfl
      | invalidated => rfl
  have sent : (tick order now s).1.switching = (s.tickSettled order now).1.switching :=
    utterances_switching (tickOutput_utters order s _)
  refine calls_when _ aged (sent.trans ?_)
  simp only [tickSettled, tickRoutes]
  split <;> rfl

theorem interfaceUp_calls (localAddresses : List IpAddr) (policy : InterfacePolicy P) (now : UInt64)
    (s : Engine P M) :
    Calls order now s
      ((s.attachInterface interface localAddresses policy now).tickReselections order now)
      (interfaceUp order interface localAddresses policy now s).1 := by
  have attached := attachInterface_reconfigures interface localAddresses policy now s
  exact calls_congr attached.switching (tick_calls order now _)

omit [MetricProfile P M] in
theorem receiveRoutes_calls (now : UInt64) (tlvs : List Tlv) (routesChanged : Bool) (s : Engine P M) :
    Calls order now s
      (if (forEach tlvs (receiveTlv order neighbour now) ⟨s, routesChanged, .empty⟩).1.routesChanged
        then [(forEach tlvs (receiveTlv order neighbour now)
          ⟨s, routesChanged, .empty⟩).1.engine] else [])
      (receiveRoutes order neighbour now tlvs routesChanged s).1 := by
  have announced : ∀ (keys : List RouteKey) (u : Engine P M), Engine.switching
      (forEach keys (announceRouterIdChange now) u).1 = u.switching := fun keys u =>
    utterances_switching (announceRouterIdChanges_utters keys u : Steps (Utterance false now) u _ _)
  have processed : Engine.switching (forEach tlvs (receiveTlv order neighbour now)
      ⟨s, routesChanged, .empty⟩).1.engine = s.switching :=
    (receiveTlvs_processes order neighbour tlvs ⟨s, routesChanged, .empty⟩).receives.switching
  simp only [receiveRoutes, andThen_apply]
  generalize (forEach tlvs (receiveTlv order neighbour now) ⟨s, routesChanged, .empty⟩).1 =
    state at processed ⊢
  exact calls_when state.routesChanged processed (announced _ _)

theorem receive_calls (source : IpAddr) (packet : Packet) (now : UInt64) (receiveTimestamp : UInt32)
    (s : Engine P M) :
    Calls order now s (s.receiveReselections order interface source packet now receiveTimestamp)
      (receive order interface source packet now receiveTimestamp s).1 := by
  unfold receive receiveReselections
  cases up : s.interfaces.get? interface with
  | none => exact rfl
  | some state =>
    dsimp only
    by_cases family : (state.policy.controlTransport.multicast.isIpv4 != source.isIpv4) = true
    · rw [if_pos family, if_pos family]
      exact rfl
    · rw [if_neg family, if_neg family]
      by_cases crowded : (!s.neighbours.containsKey ⟨interface, source⟩ &&
          decide (s.neighbours.len ≥ s.config.limits.maxNeighbors) && packet.hasHello) = true
      · rw [if_pos crowded, if_pos crowded]
        exact rfl
      · rw [if_neg crowded, if_neg crowded]
        have room : s.neighbours.containsKey ⟨interface, source⟩ = true ∨
            s.neighbours.len < s.config.limits.maxNeighbors ∨ packet.hasHello = false := by
          simpa [or_assoc, Classical.or_iff_not_imp_left] using crowded
        have observed : (s.observe state ⟨interface, source⟩ packet now receiveTimestamp).1.switching =
            s.switching :=
          (observations_senses (observe_observations receiveTimestamp up room)).switching
        generalize s.observe state ⟨interface, source⟩ packet now receiveTimestamp = heard
          at observed ⊢
        have sent : Steps (Utterance false now) heard.1 _ _ :=
          dueIhu_utters ⟨interface, source⟩ heard.2.2 heard.1
        have greeted := utterances_switching sent
        exact calls_congr (greeted.trans observed)
          (receiveRoutes_calls order ⟨interface, source⟩ now packet.tlvs heard.2.1 _)

theorem resetMetrics_calls (policy : InterfacePolicy P) (resetMetric : Bool) (now : UInt64)
    (s : Engine P M) :
    Calls order now s
      (if resetMetric && (s.resetState interface policy now).2 then
        [(s.resetState interface policy now).1] else [])
      (andThen
        (when (fun _ => resetMetric) (resetMetrics order interface policy now))
        (sendUpdates now none (some interface) (some (SendTiming.urgent now))) s).1 := by
  cases resetMetric with
  | false => exact sendUpdates_switching none (some interface) (some (SendTiming.urgent now)) s
  | true => exact calls_when _ rfl (sendUpdates_switching _ _ _ _)

theorem policyChanged_calls (policy : InterfacePolicy P) (resetMetric : Bool) (now : UInt64)
    (s : Engine P M) :
    Calls order now s (s.policyReselections order interface policy resetMetric now)
      (interfacePolicyChanged order interface policy resetMetric now s).1 := by
  unfold interfacePolicyChanged policyReselections
  cases up : s.interfaces.get? interface with
  | none => exact rfl
  | some state =>
    dsimp only
    generalize (state.policy.controlTransport != policy.controlTransport) = transportChanged
    have ticked := tick_calls order now
      (policyChangedBeforeTick order interface policy transportChanged resetMetric now s).1
    have moved : Calls order now s
        (if transportChanged then [(s.installPolicy interface policy now).detachNeighbours interface]
          else [])
        (when (fun _ => transportChanged)
          (andThen (Effect.update (detachNeighbours interface)) (reselect order now))
          (s.installPolicy interface policy now)).1 := by
      cases transportChanged with
      | true => exact ⟨rfl, rfl⟩
      | false => exact rfl
    have reset := resetMetrics_calls order interface policy resetMetric now
      (when (fun _ => transportChanged)
        (andThen (Effect.update (detachNeighbours interface)) (reselect order now))
        (s.installPolicy interface policy now)).1
    exact calls_append (calls_append moved reset) ticked

omit [NeighborMetric M] [MetricProfile P M] in
theorem replaceRoutePolicy_calls (policy : RoutePolicy) (now : UInt64) (s : Engine P M) :
    Calls order now s [s.applyRoutePolicy policy] (replaceRoutePolicy order policy now s).1 := by
  have concluded : Steps (Utterance false now) (reselect order now (s.applyRoutePolicy policy)).1
      _ _ := policyOutput_utters _
  have outcome : (replaceRoutePolicy order policy now s).1 =
      (policyOutput now (reselect order now (s.applyRoutePolicy policy)).1).1 := by
    simp only [replaceRoutePolicy, policyOutput, andThen_apply, update_apply,
      emit_apply]
  rw [outcome]
  exact ⟨rfl, utterances_switching concluded⟩

theorem replaceOrigins_calls (origins : OrdMap RouteKey UInt16) (now : UInt64) (s : Engine P M) :
    Calls order now s (s.reselections order (.replaceOrigins origins now))
      (replaceOrigins order origins now s).1 := by
  simp only [reselections, replaceOrigins]
  split
  · exact rfl
  · have edits : ∀ worse, Steps (Edit s (.replaceOrigins origins now)) s _ _ :=
      fun worse => installOrigins_edit origins worse s
    refine ⟨edits_switching (edits _), ?_⟩
    have coda : ∀ worse, Steps (Conclusion false now)
        (reselect order now (installOrigins origins worse s).1).1 _ _ := fun worse =>
      concludeOrigins_coda (s.originated.keys.filter fun key => !origins.containsKey key) _
        fun key member =>
          installOrigins_absent origins worse s (by simpa using (List.mem_filter.mp member).2)
    exact conclusions_switching (coda _)

/-- An event makes the calls of `reselections`, and changes the hysteresis by no other. -/
theorem handleValidated_calls (event : Event P) (s : Engine P M) :
    Calls order event.now s (s.reselections order event) (handleValidated order event s).1 := by
  cases event with
  | interfaceUp interface localAddresses now =>
    exact interfaceUp_calls order interface localAddresses _ now s
  | interfaceUpWithPolicy interface localAddresses policy now =>
    exact interfaceUp_calls order interface localAddresses policy now s
  | interfacePolicyChanged interface policy resetMetric now =>
    exact policyChanged_calls order interface policy resetMetric now s
  | interfaceAddressesChanged interface localAddresses now =>
    simp only [reselections, handleValidated, interfaceAddressesChanged]
    split
    · exact rfl
    · exact sendUpdates_switching _ _ _ (s.setAddresses interface localAddresses)
  | interfaceDown interface now => exact ⟨rfl, rfl⟩
  | packetReceived interface source packet now =>
    exact receive_calls order interface source packet now _ s
  | packetReceivedWithTimestamp interface source packet now receivedTimestampUs =>
    exact receive_calls order interface source packet now receivedTimestampUs s
  | originate key metric now =>
    simp only [reselections, handleValidated, originate]
    split
    · exact rfl
    · exact ⟨edits_switching (installOrigin_edit key metric s),
        sendUpdates_switching _ _ _ _⟩
  | withdraw key now =>
    obtain ⟨_, _, coda⟩ := removeOrigin_coda order key (s.originated.containsKey key) now s
    exact ⟨rfl, conclusions_switching coda⟩
  | replaceOrigins origins now => exact replaceOrigins_calls order origins now s
  | replaceRoutePolicy policy now => exact replaceRoutePolicy_calls order policy now s
  | tick now => exact tick_calls order now s

/-! ## Runs of calls -/

end Metric

structure Call (P M : Type) where
  now : UInt64
  order : HashOrder
  engine : Engine P M

def Call.after (call : Call P M) : Engine P M := (reselect call.order call.now call.engine).1

variable [NeighborMetric M] [MetricProfile P M]

def CallStep (s : Engine P M) (event : Event P) (calls : List (Call P M)) (t : Engine P M) : Prop :=
  ∃ order actions, tryHandle order event s = .ok (t, actions) ∧
    calls = (s.reselections order event).map fun engine => ⟨event.now, order, engine⟩

def CallRun : List (Event P × List (Call P M)) → Engine P M → Prop := Run Starts CallStep

theorem RunOf.calls {history : List (Event P × List Action)} (run : RunOf anyEvent history s) :
    ∃ calls, CallRun calls s ∧ calls.map Prod.fst = history.map Prod.fst := by
  refine run.invariant (fun history s => ∃ calls, CallRun calls s ∧
    calls.map Prod.fst = history.map Prod.fst) ?_ ?_
  · exact fun s starts => ⟨[], .start starts, rfl⟩
  · rintro history s event actions t ⟨calls, made, same⟩ ⟨_, order, handled⟩
    refine ⟨calls ++ [(event, _)], .step made ⟨order, actions, handled, rfl⟩, ?_⟩
    simp [same]

end Engine

end BabelRs
