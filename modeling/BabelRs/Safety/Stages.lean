import BabelRs.Safety.Phases

/-!
# The stages of an event

The events about interfaces, policies and time run in stages that each leave the tables
settled: where a stage changes what routes are selected from, it reselects before it ends.
A relation that holds across every stage holds across the event.
-/

set_option autoImplicit false

namespace BabelRs

open Lib Lib.Effect

namespace Engine

variable {P M : Type}
variable {s t : Engine P M} {actions : List Action} {now : UInt64} {ticks : Bool}

/-- The changes of an interface that no route depends on. -/
inductive Adjusts (now : UInt64) (s : Engine P M) : Engine P M → Prop
  | attached (interface : InterfaceName) (localAddresses : List IpAddr)
      (policy : InterfacePolicy P) :
      Adjusts now s (s.attachInterface interface localAddresses policy now)
  | installed (interface : InterfaceName) (policy : InterfacePolicy P) :
      Adjusts now s (s.installPolicy interface policy now)
  | readdressed (interface : InterfaceName) (localAddresses : List IpAddr) :
      Adjusts now s (s.setAddresses interface localAddresses)

/-- The changes that take candidates away. -/
inductive Purges (s : Engine P M) : Engine P M → Prop
  | detached (interface : InterfaceName) : Purges s (s.detachNeighbours interface)
  | removed (interface : InterfaceName) : Purges s (s.removeInterface interface)
  | replaced (policy : RoutePolicy) : Purges s (s.applyRoutePolicy policy)

theorem Adjusts.reconfigures (change : Adjusts now s t) : Reconfigures s t := by
  cases change with
  | attached interface localAddresses policy =>
    exact attachInterface_reconfigures interface localAddresses policy now s
  | installed interface policy => exact installPolicy_reconfigures interface policy now s
  | readdressed interface localAddresses =>
    exact setAddresses_reconfigures interface localAddresses s

theorem Purges.reconfigures (change : Purges s t) : Reconfigures s t := by
  cases change with
  | detached interface => exact detachNeighbours_reconfigures interface s
  | removed interface => exact removeInterface_reconfigures interface s
  | replaced policy => exact applyRoutePolicy_reconfigures policy s

variable [NeighborMetric M] [MetricProfile P M]

inductive Stage (ticks : Bool) (order : HashOrder) (now : UInt64) (s : Engine P M) :
    List Action → Engine P M → Prop
  | adjusted {t : Engine P M} (change : Adjusts now s t) : Stage ticks order now s [] t
  | invalidated : Stage ticks order now s [.invalidatePendingSends] s
  | purged {middle : Engine P M} (change : Purges s middle) :
      Stage ticks order now s (reselect order now middle).2 (reselect order now middle).1
  | reset (interface : InterfaceName) (policy : InterfacePolicy P) :
      Stage ticks order now s (resetMetrics order interface policy now s).2
        (resetMetrics order interface policy now s).1
  | said {actions : List Action} {t : Engine P M} (utterance : Utterance ticks now s actions t) :
      Stage ticks order now s actions t
  | ticked (ticking : ticks = true) :
      Stage ticks order now s (tick order now s).2 (tick order now s).1

variable (order : HashOrder) (interface : InterfaceName) (localAddresses : List IpAddr)

theorem utterances_stages (utterances : Steps (Utterance ticks now) s actions t) :
    Steps (Stage ticks order now) s actions t :=
  utterances.fold (steps_chains _) fun utterance => .single (.said utterance)

theorem policyChangedBeforeTick_stages (policy : InterfacePolicy P)
    (transportChanged resetMetric : Bool) :
    Meets (Steps (Stage (P := P) (M := M) ticks order now))
      (policyChangedBeforeTick order interface policy transportChanged resetMetric now) := by
  have chains := steps_chains (Stage (P := P) (M := M) ticks order now)
  exact meets_andThen chains (fun u => .single (.adjusted (.installed interface policy)))
    (meets_andThen chains (meets_when chains fun u _ => .single (.purged (.detached interface)))
      (meets_andThen chains (meets_when chains fun u _ => .single (.reset interface policy))
        fun u => utterances_stages order (sendUpdates_utters _ _ _ u)))

theorem interfaceUp_stages (policy : InterfacePolicy P) :
    Meets (Steps (Stage (P := P) (M := M) true order now))
      (interfaceUp order interface localAddresses policy now) := by
  have chains := steps_chains (Stage (P := P) (M := M) true order now)
  refine meets_andThen chains
    (fun u => .single (.adjusted (.attached interface localAddresses policy)))
    (meets_andThen chains (fun u => .single (.ticked rfl)) fun u => ?_)
  simp only [emit_apply]
  cases up : u.interfaces.get? interface with
  | none => exact .refl u
  | some state => exact .single (.said (.asked up))

/-- Invalidation is announced ahead of the reselection, so it may as well come first. -/
theorem replaceRoutePolicy_stages (policy : RoutePolicy) (s : Engine P M) :
    Steps (Stage ticks order now) s (replaceRoutePolicy order policy now s).2
      (replaceRoutePolicy order policy now s).1 := by
  have purged : Stage ticks order now s (reselect order now (s.applyRoutePolicy policy)).2
      (reselect order now (s.applyRoutePolicy policy)).1 := .purged (.replaced policy)
  have said : Steps (Stage ticks order now) (reselect order now (s.applyRoutePolicy policy)).1
      (policyOutput now (reselect order now (s.applyRoutePolicy policy)).1).2
      (policyOutput now (reselect order now (s.applyRoutePolicy policy)).1).1 :=
    utterances_stages order (policyOutput_utters _)
  have stages := Steps.step Stage.invalidated (.step purged said)
  simp only [replaceRoutePolicy, policyOutput, andThen_apply, update_apply, emit_apply,
    List.nil_append] at stages ⊢
  exact stages

/-- The events that are neither packets nor edits of the origins run in stages. -/
theorem handleValidated_stages (event : Event P) (received : event.received = none)
    (plain : event.editsOrigins = false) :
    Meets (Steps (Stage (P := P) (M := M) event.ticks order event.now))
      (handleValidated order event) := by
  have chains := steps_chains (Stage (P := P) (M := M) event.ticks order event.now)
  intro s
  cases event with
  | interfaceUp interface localAddresses now =>
    exact interfaceUp_stages order interface localAddresses s.defaultInterfacePolicy s
  | interfaceUpWithPolicy interface localAddresses policy now =>
    exact interfaceUp_stages order interface localAddresses policy s
  | interfacePolicyChanged interface policy resetMetric now =>
    simp only [handleValidated, interfacePolicyChanged]
    cases s.interfaces.get? interface with
    | none => exact .refl s
    | some state =>
      exact meets_andThen chains (policyChangedBeforeTick_stages order interface policy _ resetMetric)
        (fun u => .single (.ticked rfl)) s
  | interfaceAddressesChanged interface localAddresses now =>
    simp only [handleValidated, interfaceAddressesChanged]
    split
    · exact .refl s
    · exact chains.after_silent (.single (.adjusted (.readdressed interface localAddresses)))
        (utterances_stages order (sendUpdates_utters _ _ _ _))
  | interfaceDown interface now => exact .single (.purged (.removed interface))
  | replaceRoutePolicy policy now => exact replaceRoutePolicy_stages order policy s
  | tick now => exact .single (.ticked rfl)
  | packetReceived => cases received
  | packetReceivedWithTimestamp => cases received
  | originate => cases plain
  | withdraw => cases plain
  | replaceOrigins => cases plain

end Engine

end BabelRs
