import BabelRs.Lib.Tracked
import BabelRs.Safety.Starvation

/-!
# Split horizon

A finite Update to the multicast group of a split-horizon link is for an own origin or
for a selected route learned on another link.  Unicast replies ignore the horizon, so
nobody may claim a group address as the source of a packet: the host refuses such
packets before the engine sees them.
-/

set_option autoImplicit false

namespace BabelRs

open Lib Lib.Effect

def IpAddr.isGroup (address : IpAddr) : Bool :=
  address == ControlTransport.ipv6.multicast || address == ControlTransport.ipv4.multicast

theorem isGroup_multicast (transport : ControlTransport) : transport.multicast.isGroup = true := by
  cases transport <;> decide

/-- The transport admission of the host, as far as the horizon needs it: no packet has a
group as its source. -/
def Event.fromUnicast {P : Type} (event : Event P) : Bool :=
  event.received.all fun heard => !heard.1.address.isGroup

/-- The routes that the host knows to be selected after an action. -/
def Action.reroute (routes : List SelectedRoute) : Action → List SelectedRoute
  | .routesChanged _ selected _ => selected
  | _ => routes

theorem reroute_send {routes : List SelectedRoute} {action : Action}
    (isSend : action.isSend = true) : action.reroute routes = routes := by
  cases action with
  | send _ _ _ _ => rfl
  | _ => cases isSend

variable (order : HashOrder)

namespace Engine

variable {P M : Type} {now : UInt64}
variable {s t : Engine P M} {actions : List Action} {event : Event P} {neighbour : NeighborKey}

/-- A finite Update to the group of a split-horizon link is for an own origin, or for one
of the routes, which was learned elsewhere. -/
def Split (own : RouterId) (links : OrdMap InterfaceName (List IpAddr × InterfacePolicy P))
    (routes : List SelectedRoute) (sent : SentUpdate) : Prop :=
  ∀ addresses policy, links.get? sent.interface = some (addresses, policy) →
    policy.splitHorizon = true → sent.destination = policy.controlTransport.multicast →
    sent.update.metric ≠ INFINITY →
    sent.update.routerId = some own ∨
      ∃ route ∈ routes, sent.update.key = some route.key ∧
        sent.update.routerId = some route.routerId ∧ route.interface ≠ sent.interface

section Split
variable {own : RouterId} {links : OrdMap InterfaceName (List IpAddr × InterfacePolicy P)}
  {routes : List SelectedRoute} {sent : SentUpdate}

theorem Split.of_unicast (unicast : sent.destination.isGroup = false) :
    Split own links routes sent := by
  intro addresses policy _ _ multicast
  rw [multicast, isGroup_multicast] at unicast
  cases unicast

theorem Split.of_infinite (infinite : sent.update.metric = INFINITY) :
    Split own links routes sent :=
  fun _ _ _ _ _ finite => absurd infinite finite

end Split

/-! ## Full Updates -/

/-- What the TLV loops of one interface write. -/
def Writes (splitHorizon : Bool) (interface : InterfaceName) (routes : List SelectedRoute)
    (s : Engine P M) (tlvs : List OutboundTlv) (t : Engine P M) : Prop :=
  t.config = s.config ∧ ∀ update ∈ updatesOf tlvs, update.metric ≠ INFINITY →
    update.routerId = some s.config.routerId ∨
      ∃ route ∈ routes, update.key = some route.key ∧ update.routerId = some route.routerId ∧
        (splitHorizon = true → route.interface ≠ interface)

variable {route : SelectedRoute}

section Writes
variable {splitHorizon : Bool} {interface : InterfaceName} {routes : List SelectedRoute}

theorem writes_chains :
    Chains (Writes (P := P) (M := M) splitHorizon interface routes) where
  refl := fun s => ⟨rfl, by simp⟩
  trans := by
    rintro s middle t first second ⟨same, early⟩ ⟨sameLater, late⟩
    refine ⟨sameLater.trans same, fun update member finite => ?_⟩
    rw [updatesOf_append] at member
    rcases List.mem_append.mp member with inFirst | inSecond
    · exact early update inFirst finite
    · rw [← same]
      exact late update inSecond finite

theorem advertiseOrigin_writes (entry : RouteKey × Originated) :
    Meets (Writes (P := P) (M := M) splitHorizon interface routes)
      (advertiseOrigin now interface entry) := by
  intro s
  refine ⟨?_, by simp [advertiseOrigin]⟩
  simp only [advertiseOrigin]
  split <;> rfl

theorem advertiseSelected_writes (listed : route ∈ routes) :
    Meets (Writes (P := P) (M := M) splitHorizon interface routes)
      (advertiseSelected now interface splitHorizon route) := by
  intro s
  simp only [advertiseSelected]
  split
  next => exact writes_chains.refl s
  next permitted =>
    refine ⟨by split <;> rfl, fun update member finite => Or.inr ⟨route, listed, ?_⟩⟩
    rw [updatesOf_update, updatesOf_nil, List.mem_singleton] at member
    subst member
    refine ⟨rfl, rfl, ?_⟩
    rintro rfl here
    exact permitted (by simp [here, finite])

theorem advertiseTombstone_writes (key : RouteKey) :
    Meets (Writes (P := P) (M := M) splitHorizon interface routes)
      (advertiseTombstone interface key) := by
  intro s
  simp only [advertiseTombstone]
  split
  · exact ⟨rfl, by simp⟩
  · exact writes_chains.refl s

theorem updateTlvs_writes (origins : List (RouteKey × Originated)) (tombstones : List RouteKey) :
    Meets (Writes (P := P) (M := M) splitHorizon interface routes)
      (updateTlvs now interface splitHorizon origins routes tombstones) :=
  meets_andThen writes_chains
    (meets_forEach writes_chains fun entry _ => advertiseOrigin_writes entry)
    (meets_andThen writes_chains
      (meets_forEach writes_chains fun _ listed => advertiseSelected_writes listed)
      (meets_forEach writes_chains fun key _ => advertiseTombstone_writes key))

end Writes

theorem splits_chains (own : RouterId)
    (links : OrdMap InterfaceName (List IpAddr × InterfacePolicy P)) (routes : List SelectedRoute) :
    Chains fun (s : Engine P M) (actions : List Action) t =>
      Quiet s t ∧ ∀ sent ∈ sentUpdates actions, Split own links routes sent := by
  refine ⟨fun s => ⟨Quiet.refl s, by simp⟩, ?_⟩
  rintro s middle t first second ⟨quiet, early⟩ ⟨quietLater, late⟩
  refine ⟨quiet.trans quietLater, fun sent member => ?_⟩
  rw [sentUpdates_append] at member
  exact (List.mem_append.mp member).elim (early sent) (late sent)

theorem selectedFor_listed {only : Option RouteKey} (member : route ∈ s.selectedFor only) :
    route ∈ s.selectedRoutes :=
  OrdMap.mem_values_iff.mpr (selectedFor_found s only route member)

theorem sendUpdatesOn_split {only : Option RouteKey} {timing : Option SendTiming}
    {origins : List (RouteKey × Originated)} {selected : List SelectedRoute}
    {tombstones : List RouteKey} {name : InterfaceName} :
    ∀ sent ∈ sentUpdates (sendUpdatesOn now only timing origins selected tombstones name s).2,
      Split s.config.routerId s.links selected sent := by
  simp only [sendUpdatesOn]
  cases up : s.interfaces.get? name with
  | none => simp
  | some state =>
    have writes : Writes state.policy.splitHorizon name selected s
        (updateTlvs now name state.policy.splitHorizon origins selected tombstones s).2 _ :=
      updateTlvs_writes origins tombstones s
    simp only
    split
    · simp
    · intro sent member
      simp only [sentUpdates_cons, Action.sent, sentOn, sentUpdates_nil, List.append_nil,
        List.mem_map] at member
      obtain ⟨update, inTlvs, rfl⟩ := member
      intro addresses policy linked split _ finite
      rw [get?_links, up, Option.map_some, Option.some.injEq, Prod.mk.injEq] at linked
      refine (writes.2 update inTlvs finite).imp_right ?_
      rintro ⟨route, listed, named, from_, elsewhere⟩
      exact ⟨route, listed, named, from_, elsewhere (linked.2 ▸ split)⟩

theorem sendUpdates_split (only : Option RouteKey) (interface : Option InterfaceName)
    (timing : Option SendTiming) (s : Engine P M) :
    ∀ sent ∈ sentUpdates (sendUpdates now only interface timing s).2,
      Split s.config.routerId s.links s.selectedRoutes sent := by
  have announces : ∀ name (u : Engine P M), Quiet s u → Announces nothingLost now u _ _ :=
    fun name u before => sendUpdatesOn_announces _ _ (s.tombstonesFor only) only timing name s u before
      (originsFor_found s only) (selectedFor_found s only)
  refine (forEach_from (splits_chains s.config.routerId s.links s.selectedRoutes) (Quiet s) _ _
    (fun before moved => before.trans moved.1)
    (fun name _ u before => ⟨(announces name u before).quiet, fun sent member => ?_⟩)
    s (Quiet.refl s)).2
  have split := sendUpdatesOn_split sent member
  rw [before.config, before.links] at split
  intro addresses policy linked horizon multicast finite
  refine (split addresses policy linked horizon multicast finite).imp_right ?_
  rintro ⟨route, listed, rest⟩
  exact ⟨route, selectedFor_listed listed, rest⟩

/-! ## Triggered Updates -/

variable {sent : SentUpdate}

theorem sent_announceLoss {targets : AssocMap RouteKey NeighborKey}
    {entry : RouteKey × SelectedRoute}
    (member : sent ∈ sentUpdates (announceLoss targets now entry s).2) :
    sent.update.metric = INFINITY := by
  simp only [announceLoss] at member
  split at member
  · simp at member
  · split at member
    · split at member
      · exact (sent_sendRetraction member).2
      · rw [sentUpdates_append, List.mem_append] at member
        rcases member with retracted | requested
        · exact (sent_sendRetraction retracted).2
        · simp [originateSeqnoRequest, seqnoRequestAction, Action.sent, sentOn, updatesOf]
            at requested
    · exact (sent_sendRetraction member).2

theorem sent_announceChange (member : sent ∈ sentUpdates (announceChange now route s).2)
    {routes : List SelectedRoute} (listed : route ∈ routes) :
    Split s.config.routerId s.links routes sent := by
  obtain ⟨action, inActions, inSent⟩ := mem_sentUpdates.mp member
  obtain ⟨entry, inEntries, made⟩ := List.mem_filterMap.mp inActions
  simp only at made
  split at made
  next => cases made
  next permitted =>
    cases made
    simp only [Action.sent, sentOn_update, List.mem_singleton] at inSent
    subst inSent
    intro addresses policy linked split _ finite
    have up : s.interfaces.get? entry.1 = some entry.2 := OrdMap.get?_eq_some_iff.mpr inEntries
    rw [get?_links, up, Option.map_some, Option.some.injEq, Prod.mk.injEq] at linked
    refine Or.inr ⟨route, listed, rfl, rfl, fun here => permitted ?_⟩
    simp [linked.2, split, here, finite]

theorem selectedDelta_split (before : OrdMap RouteKey SelectedRoute) (s : Engine P M) :
    ∀ sent ∈ sentUpdates (selectedDelta order before now s).2,
      Split s.config.routerId s.links s.selectedRoutes sent := by
  have chains := splits_chains (M := M) s.config.routerId s.links s.selectedRoutes
  have quietly : ∀ entry (u : Engine P M), Announces (fun _ => True) now u _ _ :=
    fun entry u => announceLoss_announces (s.requestTargets order before) entry trivial u
  have losses : Meets _ (forEach before.entries
      (announceLoss (s.requestTargets order before) now)) :=
    meets_forEach chains fun entry _ u =>
      ⟨(quietly entry u).quiet, fun sent member => .of_infinite (sent_announceLoss member)⟩
  refine (chains.trans (losses s) (forEach_from chains (Quiet s) _ _
    (fun before moved => before.trans moved.1) (fun route member u before =>
      ⟨(quiet_repeatAdvertisement route.key u).trans (quiet_maintainWhen _ _ _ _ _), ?_⟩)
    _ (losses s).1)).2
  obtain ⟨entry, inEntries, rfl⟩ := List.mem_map.mp member
  rw [← before.config, ← before.links]
  intro sent inSent
  exact sent_announceChange inSent (OrdMap.mem_values_iff.mpr
    ⟨entry.1, OrdMap.get?_eq_some_iff.mpr (List.mem_filter.mp inEntries).1⟩)

/-! ## Requesters -/

/-- Nobody asked under a group address. -/
def AskedByUnicast (s : Engine P M) : Prop :=
  ∀ slot pending requester, s.pendingSeqno.get? slot = some pending →
    pending.requester = some requester → requester.address.isGroup = false

/-- Every requester asked before, or is no group. -/
theorem AskedByUnicast.of_requests (asked : AskedByUnicast s)
    (each : ∀ slot pending, t.pendingSeqno.get? slot = some pending →
      (∃ old, s.pendingSeqno.get? slot = some old ∧ pending.requester = old.requester) ∨
        ∀ requester, pending.requester = some requester → requester.address.isGroup = false) :
    AskedByUnicast t := by
  intro slot pending requester found asking
  rcases each slot pending found with ⟨old, earlier, same⟩ | unicast
  · exact asked slot old requester earlier (same ▸ asking)
  · exact unicast requester asking

theorem AskedByUnicast.of_kept (asked : AskedByUnicast s)
    (kept : ∀ slot pending, t.pendingSeqno.get? slot = some pending →
      s.pendingSeqno.get? slot = some pending) : AskedByUnicast t :=
  asked.of_requests fun slot pending found => Or.inl ⟨pending, kept slot pending found, rfl⟩

theorem AskedByUnicast.of_pending (asked : AskedByUnicast s)
    (same : t.pendingSeqno = s.pendingSeqno) : AskedByUnicast t :=
  asked.of_kept fun _ _ found => same ▸ found

theorem announceLoss_asked (targets : AssocMap RouteKey NeighborKey)
    (entry : RouteKey × SelectedRoute) (s : Engine P M) (asked : AskedByUnicast s) :
    AskedByUnicast (announceLoss targets now entry s).1 := by
  simp only [announceLoss]
  split
  · exact asked
  · split
    · split
      · exact asked.of_pending rfl
      · refine asked.of_requests fun slot pending found => ?_
        simp only [originateSeqnoRequest, AssocMap.get?_insert] at found
        split at found
        · cases found
          exact Or.inr fun requester asking => by cases asking
        · exact Or.inl ⟨pending, found, rfl⟩
    · exact asked.of_pending rfl

theorem Reselects.askedByUnicast (reselects : Reselects now s actions t)
    (asked : AskedByUnicast s) : AskedByUnicast t := by
  have chains := keeps_chains (A := Action) (AskedByUnicast (P := P) (M := M))
  cases reselects with
  | skipped => exact asked
  | taken order =>
    have state : AskedByUnicast (s.reselectState order now) := asked.of_pending rfl
    unfold reselect
    simp only
    split
    · refine meets_andThen chains (meets_forEach chains fun entry _ =>
        announceLoss_asked _ entry) (meets_forEach chains fun route _ u held => ?_)
        (routeSnapshot (s.reselectState order now)).1 (state.of_pending rfl)
      exact held.of_pending (announceChange_idle route u)
    · exact state

theorem retryRequests_asked (s : Engine P M) (asked : AskedByUnicast s) :
    AskedByUnicast (retryRequests order now s).1 := by
  refine meets_forEach (keeps_chains AskedByUnicast) (fun entry _ u held => ?_) s asked
  simp only [retryRequest]
  split
  · refine held.of_kept fun slot pending found => ?_
    simp only [AssocMap.get?_remove] at found
    split at found
    · cases found
    · exact found
  · refine held.of_requests fun slot pending found => Or.inl ?_
    simp only [AssocMap.get?_modify, Option.map_eq_some_iff] at found
    obtain ⟨old, earlier, rfl⟩ := found
    refine ⟨old, earlier, ?_⟩
    split <;> rfl

variable {ticks : Bool}

theorem Output.askedByUnicast (output : Output ticks now s actions t) (asked : AskedByUnicast s) :
    AskedByUnicast t := by
  cases output with
  | said utterance =>
    cases utterance with
    | updates only interface timing =>
      exact asked.of_pending (sendUpdates_idle only interface timing s)
    | retries order _ => exact retryRequests_asked order s asked
    | _ => exact asked.of_pending rfl
  | _ => exact asked.of_pending rfl

theorem Reconfiguration.askedByUnicast (change : Reconfiguration now s t)
    (asked : AskedByUnicast s) : AskedByUnicast t := by
  cases change with
  | unchanged => exact asked
  | attached interface localAddresses policy =>
    unfold attachInterface
    split
    · exact asked
    · exact asked.of_pending rfl
  | replaced policy =>
    refine asked.of_kept fun slot pending found => ?_
    simp only [applyRoutePolicy, AssocMap.get?_retain, Option.filter_eq_some_iff] at found
    exact found.1
  | _ => exact asked.of_pending rfl

/-! ## Every move -/

/-- Links, router-id and policy stay, the host knows the selected routes, and every Update
respects the horizon of the routes known when it is sent. -/
structure Horizons (s : Engine P M) (actions : List Action) (t : Engine P M) : Prop where
  config : t.config = s.config
  links : t.links = s.links
  routes : t.selectedRoutes = actions.foldl Action.reroute s.selectedRoutes
  split : Tracked Action.reroute
    (fun routes action => ∀ sent ∈ action.sent, Split s.config.routerId s.links routes sent)
    s.selectedRoutes actions

theorem horizons_chains : Chains (Horizons (P := P) (M := M)) where
  refl := fun s => ⟨rfl, rfl, rfl, trivial⟩
  trans := by
    intro s middle t first second left right
    refine ⟨right.config.trans left.config, right.links.trans left.links, ?_, ?_⟩
    · rw [List.foldl_append, ← left.routes, right.routes]
    · have late := right.split
      rw [left.config, left.links, left.routes] at late
      exact tracked_append.mpr ⟨left.split, late⟩

theorem Horizons.of_constant (config : t.config = s.config) (links : t.links = s.links)
    (selected : t.selected = s.selected)
    (constant : ∀ action ∈ actions, action.reroute s.selectedRoutes = s.selectedRoutes)
    (split : ∀ sent ∈ sentUpdates actions,
      Split s.config.routerId s.links s.selectedRoutes sent) : Horizons s actions t where
  config := config
  links := links
  routes := by rw [foldl_of_constant constant, selectedRoutes, selected, selectedRoutes]
  split := tracked_of_constant constant fun action member sent inAction =>
    split sent (mem_sentUpdates.mpr ⟨action, member, inAction⟩)

theorem Quiet.horizons (quiet : Quiet s t) (sends : ∀ action ∈ actions, action.isSend = true)
    (split : ∀ sent ∈ sentUpdates actions,
      Split s.config.routerId s.links s.selectedRoutes sent) : Horizons s actions t :=
  .of_constant quiet.config quiet.links quiet.selected
    (fun action member => reroute_send (sends action member)) split

theorem reselect_horizons (s : Engine P M) :
    Horizons s (reselect order now s).2 (reselect order now s).1 := by
  by_cases changed : (s.reselectState order now).selected ≠ s.selected ∨
      (s.reselectState order now).tombstones.keys ≠ s.tombstones.keys
  · have outcome : reselect order now s = andThen routeSnapshot
        (selectedDelta order s.selected now) (s.reselectState order now) := if_pos changed
    have tables := reselect_tables order now s
    have quiet : Announces _ now _ _ _ := selectedDelta_announces order s.selected
      (routeSnapshot (s.reselectState order now)).1 (reselectState_keyed order now s)
    have delta : Horizons (routeSnapshot (s.reselectState order now)).1 _ _ :=
      quiet.quiet.horizons quiet.sends (selectedDelta_split order s.selected _)
    rw [outcome] at tables ⊢
    refine ⟨tables.config, tables.links, delta.routes, ?_, ?_⟩
    · intro sent member
      cases member
    · exact delta.split
  · have silent : reselect order now s = (s.reselectState order now, []) := if_neg changed
    have tables := reselect_tables order now s
    rw [silent] at tables ⊢
    refine ⟨tables.config, tables.links, ?_, trivial⟩
    simp only [not_or, not_not] at changed
    rw [List.foldl_nil, selectedRoutes, changed.1, selectedRoutes]

theorem sentUpdates_retryRequests (s : Engine P M) :
    sentUpdates (retryRequests order now s).2 = [] := by
  have chains : Chains fun (_ : Engine P M) (actions : List Action) _ =>
      sentUpdates actions = [] :=
    ⟨fun _ => rfl, fun first second => by rw [sentUpdates_append, first, second]; rfl⟩
  refine meets_forEach chains (fun entry _ u => ?_) s
  simp only [retryRequest]
  split <;> rfl

theorem Utterance.split (utterance : Utterance ticks now s actions t) :
    ∀ sent ∈ sentUpdates actions, Split s.config.routerId s.links s.selectedRoutes sent := by
  have silently : sentUpdates actions = [] → ∀ sent ∈ sentUpdates actions,
      Split s.config.routerId s.links s.selectedRoutes sent := fun silent => by simp [silent]
  cases utterance with
  | updates only interface timing => exact sendUpdates_split only interface timing s
  | retracted key _ _ =>
    exact fun sent member => .of_infinite (sent_sendRetraction member).2
  | retries order _ => exact silently (sentUpdates_retryRequests order s)
  | greeted up known probe echo paired rxcost nextIhuMs nextRttProbeMs timing =>
    exact silently (by cases probe <;> rfl)
  | _ => exact silently rfl

theorem Output.horizons (output : Output ticks now s actions t) :
    Horizons s actions t := by
  cases output with
  | said utterance =>
    have announces : Announces nothingLost now s actions t := utterance.announces
    exact announces.quiet.horizons announces.sends utterance.split
  | reported => exact ⟨rfl, rfl, rfl, by simp [Action.sent], trivial⟩
  | held _ _ _ => exact .of_constant rfl rfl rfl (by simp) (by simp)
  | lifted _ _ => exact .of_constant rfl rfl rfl (by simp) (by simp)

theorem Edit.horizons {before : Engine P M} (edit : Edit before event s actions t) :
    Horizons s actions t := by
  cases edit with
  | lifted _ => exact ⟨rfl, rfl, rfl, by simp [Action.sent], trivial⟩
  | bumped => exact .of_constant rfl rfl rfl (by simp [Action.reroute]) (by simp [Action.sent])
  | _ => exact .of_constant rfl rfl rfl (by simp) (by simp)

section Metric
variable [NeighborMetric M]

/-! ## Replies -/

omit [NeighborMetric M] in
theorem sent_updateAction {key : RouteKey} {routerId : RouterId} {seqno metric : UInt16}
    {destination : NeighborKey} (member : sent ∈ sentUpdates
      (updateActionToCandidate key routerId seqno metric destination now s).2) :
    sent.destination = destination.address := by
  simp only [updateActionToCandidate, sentUpdates_cons, Action.sent, sentOn_update, sentUpdates_nil,
    List.append_nil, List.mem_singleton] at member
  rw [member]

omit [NeighborMetric M] in
theorem sent_reply {key : RouteKey} {destination : NeighborKey}
    (member : sent ∈ sentUpdates (replyToRouteRequest key destination now s).2) :
    sent.destination = destination.address := by
  unfold replyToRouteRequest at member
  split at member
  · exact sent_updateAction member
  · split at member
    · exact sent_updateAction member
    · simp only [retractionAction, sentUpdates_cons, Action.sent, sentOn_update, sentUpdates_nil,
        List.append_nil, List.mem_singleton] at member
      rw [member]

theorem receiveUpdate_split (neighbour : NeighborKey) (update : ResolvedUpdate)
    (asked : AskedByUnicast s) :
    ∀ sent ∈ sentUpdates (s.receiveUpdate order neighbour update now).actions,
      Split s.config.routerId s.links s.selectedRoutes sent := by
  have effect : UpdateEffect neighbour now update s _ :=
    receiveUpdate_effect order neighbour update s
  generalize s.receiveUpdate order neighbour update now = outcome at effect ⊢
  cases effect with
  | announced _ silent => simp [silent]
  | retractedAll _ _ => simp [retractAll]
  | retracted _ _ _ => simp [retractOne]
  | rejected _ _ => simp [rejectByPolicy]
  | limited _ => simp [rejectByLimit]
  | stored finite state resolved admitted known room current requests =>
    rcases requests with ⟨_, silent⟩ | ⟨_, answers⟩
    · simp [silent]
    · intro sent member
      obtain ⟨slot, pending, found, _, asking⟩ := (answers.replies sent member).1
      exact .of_unicast (asked slot pending _ found asking)

theorem receiveTlv_split (tlv : Tlv) (unicast : neighbour.address.isGroup = false)
    (state : ReceiveState P M) (asked : AskedByUnicast state.engine) :
    ∀ sent ∈ sentUpdates (receiveTlv order neighbour now tlv state).2,
      Split state.engine.config.routerId state.engine.links state.engine.selectedRoutes sent := by
  have replied : ∀ {sent : SentUpdate}, sent.destination = neighbour.address →
      Split state.engine.config.routerId state.engine.links state.engine.selectedRoutes sent :=
    fun same => .of_unicast (same ▸ unicast)
  intro sent member
  cases tlv with
  | update update => exact receiveUpdate_split order neighbour update asked sent member
  | routeRequest key subTlvs =>
    cases key with
    | some key => exact replied (sent_reply member)
    | none =>
      simp only [receiveTlv] at member
      split at member
      · exact sendUpdates_split _ _ _ state.engine sent member
      · simp at member
  | seqnoRequest key seqno hopCount routerId subTlvs =>
    simp only [receiveTlv, handleSeqnoRequest] at member
    split at member
    · exact replied (sent_reply member)
    · split at member
      · exact replied (sent_updateAction member)
      · split at member
        next origin _ =>
          by_cases newer : seqnoGt seqno origin.seqno = true
          · simp only [answerOwnRequest, newer] at member
            exact sendUpdates_split _ _ _ state.engine.bumpSequenceNumber sent member
          · simp only [answerOwnRequest, newer] at member
            exact sendUpdates_split _ _ _ state.engine sent member
        next =>
          unfold forwardRequest at member
          split_ifs at member
          · simp at member
          · simp at member
          · split at member
            · simp at member
            · simp [originateSeqnoRequest, seqnoRequestAction, Action.sent, sentOn,
                updatesOf] at member
  | ackRequest nonce intervalCs =>
    simp [receiveTlv, Action.sent, sentOn, updatesOf] at member
  | _ => simp [receiveTlv] at member

theorem TlvEffect.reroute {tlv : Tlv} {changed : Bool}
    (effect : TlvEffect neighbour now tlv s actions t changed) (routes : List SelectedRoute) :
    ∀ action ∈ actions, action.reroute routes = routes := by
  cases effect with
  | announced announces _ => exact fun action member => reroute_send (announces.sends action member)
  | bumped key own announces _ =>
    intro action member
    rcases List.mem_cons.mp member with rfl | later
    · rfl
    · exact reroute_send (announces.sends action later)
  | updated update isUpdate effect =>
    cases effect with
    | announced announces _ =>
      exact fun action member => reroute_send (announces.sends action member)
    | retractedAll _ _ => simp [retractAll]
    | retracted _ _ _ => simp [retractOne]
    | rejected _ _ => simp [rejectByPolicy]
    | limited _ => simp [rejectByLimit]
    | stored finite state resolved admitted known room current requests =>
      rcases requests with ⟨announces, _⟩ | ⟨_, answers⟩
      · exact fun action member => reroute_send (announces.sends action member)
      · exact fun action member => reroute_send (answers.sends action member)

theorem receiveTlv_horizons (tlv : Tlv) (unicast : neighbour.address.isGroup = false)
    (state : ReceiveState P M) (asked : AskedByUnicast state.engine) :
    AskedByUnicast (receiveTlv order neighbour now tlv state).1.engine ∧
      Horizons state.engine (receiveTlv order neighbour now tlv state).2
        (receiveTlv order neighbour now tlv state).1.engine := by
  obtain ⟨_, _, effect⟩ := receiveTlv_effect order neighbour now tlv state
  constructor
  · refine asked.of_requests fun slot pending found => ?_
    refine (receiveTlv_pending found).imp (fun kept => ⟨pending, kept, rfl⟩) fun added => ?_
    exact fun requester asking => added.2 requester asking ▸ unicast
  · exact .of_constant effect.receives.config effect.receives.links effect.receives.selected
      (effect.reroute _) (receiveTlv_split order tlv unicast state asked)

/-! ## Events -/

variable [MetricProfile P M]

theorem Prelude.horizons (prelude : Prelude now s actions t) (asked : AskedByUnicast s) :
    AskedByUnicast t ∧ Horizons s actions t := by
  cases prelude with
  | sensed silent =>
    have senses := silent.senses
    refine ⟨asked.of_pending ?_,
      .of_constant senses.config senses.links senses.selected (by simp) (by simp)⟩
    cases silent <;> rfl
  | collected => exact ⟨asked.of_pending rfl, .of_constant rfl rfl rfl (by simp) (by simp)⟩
  | invalidated =>
    exact ⟨asked, .of_constant rfl rfl rfl (by simp [Action.reroute]) (by simp [Action.sent])⟩

theorem Observation.horizons {tlvs : List Tlv}
    (observation : Observation neighbour now tlvs s actions t) (asked : AskedByUnicast s) :
    AskedByUnicast t ∧ Horizons s actions t := by
  obtain ⟨rfl, senses⟩ := observation.senses
  refine ⟨asked.of_pending ?_,
    .of_constant senses.config senses.links senses.selected (by simp) (by simp)⟩
  cases observation <;> rfl

theorem moves_horizons (unicast : event.fromUnicast = true) :
    Moves event (Effect.Guarded AskedByUnicast (Horizons (P := P) (M := M))) where
  prelude := Prelude.horizons
  reselects := fun move asked => ⟨move.askedByUnicast asked, by
    cases move with
    | skipped => exact horizons_chains.refl _
    | taken order => exact reselect_horizons order _⟩
  output := fun move asked => ⟨move.askedByUnicast asked, move.horizons⟩
  observation := fun _ => Observation.horizons
  tlv := fun received _ order state => receiveTlv_horizons order _
    (by simpa [Event.fromUnicast, received] using unicast) state

/-- The handling of an event keeps the horizon of the routes known at every moment. -/
theorem Dispatched.horizons (dispatched : Dispatched event s actions t)
    (unicast : event.fromUnicast = true) (asked : AskedByUnicast s) :
    AskedByUnicast t ∧ Tracked Action.reroute
      (fun routes action => ∀ sent ∈ action.sent, Split t.config.routerId t.links routes sent)
      s.selectedRoutes actions := by
  obtain ⟨start, change, guarded⟩ := dispatched.fold
    (guarded_chains AskedByUnicast horizons_chains) (moves_horizons unicast)
    fun _ _ _ _ edit asked => ⟨asked.of_pending (by cases edit <;> rfl), edit.horizons⟩
  obtain ⟨after, horizons⟩ := guarded (change.askedByUnicast asked)
  have split := horizons.split
  rw [← horizons.config, ← horizons.links, selectedRoutes, change.reconfigures.selected] at split
  exact ⟨after, split⟩

theorem RunOf.askedByUnicast {allowed : Engine P M → Event P → Bool}
    {history : List (Event P × List Action)} (run : RunOf allowed history s)
    (unicast : ∀ past ∈ history, past.1.fromUnicast = true) : AskedByUnicast s := by
  refine run.invariant (fun history s =>
    (∀ past ∈ history, past.1.fromUnicast = true) → AskedByUnicast s) ?_ ?_ unicast
  · intro s starts _
    obtain ⟨config, _, rfl⟩ := starts.eq_initial
    intro slot pending requester found
    cases found
  · rintro history s event actions t earlier ⟨_, order, handled⟩ admitted
    obtain ⟨_, _, rfl⟩ := tryHandle_ok handled
    exact ((handleValidated_dispatched order event s).horizons
      (admitted _ (List.mem_append_right _ List.mem_cons_self))
      (earlier fun past member => admitted past (List.mem_append_left _ member))).1

end Metric

end Engine

end BabelRs
