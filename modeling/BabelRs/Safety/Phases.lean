import BabelRs.Safety.Coherence

/-!
# The phases of an event

Every event reconfigures the engine silently, prepares (senses, collects, edits
origins), reselects at most once and then concludes with output.  A changed
interface policy runs through such phases three times; a packet prepares by its
route TLVs.  Facts about whole events follow from the single moves below.
-/

set_option autoImplicit false

namespace BabelRs

open Lib Lib.Effect

/-- A candidate that lost nothing but its timers, its metric, or its reachability. -/
structure Candidate.Faded (candidate old : Candidate) : Prop where
  key : candidate.key = old.key
  routerId : candidate.routerId = old.routerId
  seqno : candidate.seqno = old.seqno
  nextHop : candidate.nextHop = old.nextHop
  interface : candidate.interface = old.interface
  advertised : candidate.advertisedMetric = old.advertisedMetric ∨
    candidate.advertisedMetric = INFINITY

/-- The metric an event installs for an origin. -/
def Event.originMetric {P : Type} (event : Event P) (key : RouteKey) : Option UInt16 :=
  match event with
  | .originate origin metric _ => if origin = key then some metric else none
  | .replaceOrigins origins _ => origins.get? key
  | _ => none

variable (order : HashOrder) (interface : InterfaceName) (origins : OrdMap RouteKey UInt16)
  (localAddresses : List IpAddr)

namespace Engine

variable {P M : Type}
variable {s t : Engine P M} {actions : List Action} {now : UInt64} {neighbour : NeighborKey}
  {tlvs : List Tlv}

/-! ## Silent changes -/

/-- No candidate is new. -/
def Fades (s t : Engine P M) : Prop :=
  ∀ entry candidate, t.candidates.get? entry = some candidate →
    ∃ old, s.candidates.get? entry = some old ∧ candidate.Faded old

theorem Fades.of_kept (kept : ∀ entry candidate, t.candidates.get? entry = some candidate →
      s.candidates.get? entry = some candidate) : Fades s t :=
  fun entry candidate found =>
    ⟨candidate, kept entry candidate found, rfl, rfl, rfl, rfl, rfl, Or.inl rfl⟩

variable {middle : Engine P M}

theorem Fades.trans (first : Fades s middle) (second : Fades middle t) :
    Fades s t := by
  intro entry candidate found
  obtain ⟨between, stored, faded⟩ := second entry candidate found
  obtain ⟨old, storedBefore, fadedBefore⟩ := first entry between stored
  refine ⟨old, storedBefore, faded.key.trans fadedBefore.key,
    faded.routerId.trans fadedBefore.routerId, faded.seqno.trans fadedBefore.seqno,
    faded.nextHop.trans fadedBefore.nextHop, faded.interface.trans fadedBefore.interface, ?_⟩
  rcases faded.advertised with same | infinite
  · rw [same]
    exact fadedBefore.advertised
  · exact Or.inr infinite

/-- A silent change of interfaces, policies, neighbours and fading candidates. -/
structure Reconfigures (s t : Engine P M) : Prop where
  routerId : t.config.routerId = s.config.routerId
  feasible : t.feasible = s.feasible
  originated : t.originated = s.originated
  selected : t.selected = s.selected
  tombstones : t.tombstones = s.tombstones
  advertisedUntil : t.advertisedUntil = s.advertisedUntil
  generation : t.generation = s.generation
  sequenceNumber : t.sequenceNumber = s.sequenceNumber
  switching : t.switching = s.switching
  fades : Fades s t

/-- The same without touching configuration and links. -/
structure Senses (s t : Engine P M) : Prop extends Reconfigures s t where
  config : t.config = s.config
  links : t.links = s.links

theorem Reconfigures.refl (s : Engine P M) : Reconfigures s s :=
  ⟨rfl, rfl, rfl, rfl, rfl, rfl, rfl, rfl, rfl, Fades.of_kept fun _ _ found => found⟩

theorem Senses.refl (s : Engine P M) : Senses s s := ⟨Reconfigures.refl s, rfl, rfl⟩

theorem Senses.trans (first : Senses s middle) (second : Senses middle t) :
    Senses s t where
  routerId := second.routerId.trans first.routerId
  feasible := second.feasible.trans first.feasible
  originated := second.originated.trans first.originated
  selected := second.selected.trans first.selected
  tombstones := second.tombstones.trans first.tombstones
  advertisedUntil := second.advertisedUntil.trans first.advertisedUntil
  generation := second.generation.trans first.generation
  sequenceNumber := second.sequenceNumber.trans first.sequenceNumber
  switching := second.switching.trans first.switching
  fades := first.fades.trans second.fades
  config := second.config.trans first.config
  links := second.links.trans first.links

/-! ## Fading tables -/

theorem detachNeighbours_fades (s : Engine P M) :
    Fades s (s.detachNeighbours interface) := by
  refine Fades.of_kept fun entry candidate found => ?_
  simp only [detachNeighbours, AssocMap.get?_retain, Option.filter_eq_some_iff] at found
  exact found.1

theorem applyRoutePolicy_fades (policy : RoutePolicy) (s : Engine P M) :
    Fades s (s.applyRoutePolicy policy) := by
  refine Fades.of_kept fun entry candidate found => ?_
  simp only [applyRoutePolicy, AssocMap.get?_retain, Option.filter_eq_some_iff] at found
  exact found.1

theorem dropSilentNeighbours_fades (s : Engine P M) : Fades s (s.dropSilentNeighbours).1 := by
  refine Fades.of_kept fun entry candidate found => ?_
  simp only [dropSilentNeighbours, AssocMap.get?_retain, Option.filter_eq_some_iff] at found
  exact found.1

theorem expireCandidates_fades (now : UInt64) (s : Engine P M) :
    Fades s (s.expireCandidates now).1 := by
  intro entry candidate found
  simp only [expireCandidates, AssocMap.get?_mapValues, AssocMap.get?_retain,
    Option.map_eq_some_iff, Option.filter_eq_some_iff] at found
  obtain ⟨old, ⟨stored, _⟩, rfl⟩ := found
  refine ⟨old, stored, ?_⟩
  split
  · exact ⟨rfl, rfl, rfl, rfl, rfl, Or.inr rfl⟩
  · exact ⟨rfl, rfl, rfl, rfl, rfl, Or.inl rfl⟩

theorem requestRefreshes_fades (now : UInt64) (s : Engine P M) :
    Fades s (s.requestRefreshes order now).1 := by
  intro entry candidate found
  simp only [requestRefreshes, AssocMap.get?_mapValues, Option.map_eq_some_iff] at found
  obtain ⟨old, stored, rfl⟩ := found
  refine ⟨old, stored, ?_⟩
  split
  · exact ⟨rfl, rfl, rfl, rfl, rfl, Or.inl rfl⟩
  · exact ⟨rfl, rfl, rfl, rfl, rfl, Or.inl rfl⟩

theorem recomputeCandidateMetrics_fades [NeighborMetric M] (only : Option NeighborKey) (s : Engine P M) :
    Fades s (s.recomputeCandidateMetrics only).1 := by
  intro entry candidate found
  rw [get?_recomputed] at found
  obtain ⟨old, stored, rfl⟩ := Option.map_eq_some_iff.mp found
  exact ⟨old, stored, rfl, rfl, rfl, rfl, rfl, Or.inl rfl⟩

theorem attachInterface_reconfigures (policy : InterfacePolicy P) (now : UInt64)
    (s : Engine P M) : Reconfigures s (s.attachInterface interface localAddresses policy now) := by
  unfold attachInterface
  split
  · exact Reconfigures.refl s
  · exact ⟨rfl, rfl, rfl, rfl, rfl, rfl, rfl, rfl, rfl, Fades.of_kept fun _ _ found => found⟩

theorem installPolicy_reconfigures (policy : InterfacePolicy P) (now : UInt64)
    (s : Engine P M) : Reconfigures s (s.installPolicy interface policy now) :=
  ⟨rfl, rfl, rfl, rfl, rfl, rfl, rfl, rfl, rfl, Fades.of_kept fun _ _ found => found⟩

theorem setAddresses_reconfigures (s : Engine P M) :
    Reconfigures s (s.setAddresses interface localAddresses) :=
  ⟨rfl, rfl, rfl, rfl, rfl, rfl, rfl, rfl, rfl, Fades.of_kept fun _ _ found => found⟩

theorem detachNeighbours_reconfigures (s : Engine P M) :
    Reconfigures s (s.detachNeighbours interface) :=
  ⟨rfl, rfl, rfl, rfl, rfl, rfl, rfl, rfl, rfl, detachNeighbours_fades interface s⟩

theorem removeInterface_reconfigures (s : Engine P M) :
    Reconfigures s (s.removeInterface interface) :=
  ⟨rfl, rfl, rfl, rfl, rfl, rfl, rfl, rfl, rfl, detachNeighbours_fades interface s⟩

theorem applyRoutePolicy_reconfigures (policy : RoutePolicy) (s : Engine P M) :
    Reconfigures s (s.applyRoutePolicy policy) :=
  ⟨rfl, rfl, rfl, rfl, rfl, rfl, rfl, rfl, rfl, applyRoutePolicy_fades policy s⟩

/-! ## Silent moves -/

section Silent
variable [NeighborMetric M] [MetricProfile P M]

/-- The silent changes of neighbours and candidates. -/
inductive Silent (now : UInt64) (s : Engine P M) : Engine P M → Prop
  | aged : Silent now s (s.ageNeighbours now).1
  | silenced : Silent now s s.dropSilentNeighbours.1
  | unheard : Silent now s (s.expireIhus now).1
  | expired : Silent now s (s.expireCandidates now).1
  | refreshed (order : HashOrder) : Silent now s (s.requestRefreshes order now).1
  | recomputed (only : Option NeighborKey) : Silent now s (s.recomputeCandidateMetrics only).1
  | reset (interface : InterfaceName) (policy : InterfacePolicy P) :
      Silent now s
        { s with
          neighbours := s.neighbours.mapValues fun key neighbour =>
            if key.interface = interface then resetNeighbour interface policy now key neighbour
            else neighbour }

theorem Silent.senses (silent : Silent now s t) :
    Senses s t := by
  have kept : Fades s s := Fades.of_kept fun _ _ found => found
  cases silent with
  | aged => exact ⟨⟨rfl, rfl, rfl, rfl, rfl, rfl, rfl, rfl, rfl, kept⟩, rfl, rfl⟩
  | silenced =>
    exact ⟨⟨rfl, rfl, rfl, rfl, rfl, rfl, rfl, rfl, rfl, dropSilentNeighbours_fades s⟩, rfl, rfl⟩
  | unheard => exact ⟨⟨rfl, rfl, rfl, rfl, rfl, rfl, rfl, rfl, rfl, kept⟩, rfl, rfl⟩
  | expired =>
    exact ⟨⟨rfl, rfl, rfl, rfl, rfl, rfl, rfl, rfl, rfl, expireCandidates_fades now s⟩, rfl, rfl⟩
  | refreshed order =>
    exact ⟨⟨rfl, rfl, rfl, rfl, rfl, rfl, rfl, rfl, rfl, requestRefreshes_fades order now s⟩, rfl, rfl⟩
  | recomputed only =>
    exact ⟨⟨rfl, rfl, rfl, rfl, rfl, rfl, rfl, rfl, rfl, recomputeCandidateMetrics_fades only s⟩,
      rfl, rfl⟩
  | reset interface policy => exact ⟨⟨rfl, rfl, rfl, rfl, rfl, rfl, rfl, rfl, rfl, kept⟩, rfl, rfl⟩

/-- How an event changes the configuration before its first phase. -/
inductive Reconfiguration (now : UInt64) (s : Engine P M) : Engine P M → Prop
  | unchanged : Reconfiguration now s s
  | attached (interface : InterfaceName) (localAddresses : List IpAddr)
      (policy : InterfacePolicy P) :
      Reconfiguration now s (s.attachInterface interface localAddresses policy now)
  | installed {interface : InterfaceName} {policy : InterfacePolicy P} {state : InterfaceState P}
      (up : s.interfaces.get? interface = some state)
      (kept : state.policy.controlTransport = policy.controlTransport) :
      Reconfiguration now s (s.installPolicy interface policy now)
  | rehoused (interface : InterfaceName) (policy : InterfacePolicy P) :
      Reconfiguration now s ((s.installPolicy interface policy now).detachNeighbours interface)
  | readdressed (interface : InterfaceName) (localAddresses : List IpAddr) :
      Reconfiguration now s (s.setAddresses interface localAddresses)
  | removed (interface : InterfaceName) : Reconfiguration now s (s.removeInterface interface)
  | replaced (policy : RoutePolicy) : Reconfiguration now s (s.applyRoutePolicy policy)

omit [NeighborMetric M] [MetricProfile P M] in
theorem Reconfiguration.reconfigures (change : Reconfiguration now s t) : Reconfigures s t := by
  cases change with
  | unchanged => exact Reconfigures.refl s
  | attached interface localAddresses policy =>
    exact attachInterface_reconfigures interface localAddresses policy now s
  | installed _ _ => exact installPolicy_reconfigures _ _ now s
  | rehoused interface policy =>
    exact ⟨rfl, rfl, rfl, rfl, rfl, rfl, rfl, rfl, rfl, detachNeighbours_fades interface _⟩
  | readdressed interface localAddresses =>
    exact setAddresses_reconfigures interface localAddresses s
  | removed interface => exact removeInterface_reconfigures interface s
  | replaced policy => exact applyRoutePolicy_reconfigures policy s

/-- What a packet tells about its sender, one Hello, sample or IHU at a time. -/
inductive Observation (neighbour : NeighborKey) (now : UInt64) (tlvs : List Tlv)
    (s : Engine P M) : List Action → Engine P M → Prop
  | refused (rejections : Rejections) :
      Observation neighbour now tlvs s [] { s with rejections := rejections }
  | greeted {state : InterfaceState P} {unicast : Bool} {seqno intervalCs : UInt16}
      {subTlvs : List SubTlv} (up : s.interfaces.get? neighbour.interface = some state)
      (room : s.neighbours.containsKey neighbour = true ∨
        s.neighbours.len < s.config.limits.maxNeighbors)
      (listed : Tlv.hello unicast seqno intervalCs subTlvs ∈ tlvs) (receiveTimestamp : UInt32) :
      Observation neighbour now tlvs s []
        { s with
          neighbours := s.neighbours.insert neighbour
            (Neighbor.onHelloTlv state.policy.metric neighbour state.policy.helloIntervalCs
              receiveTimestamp now unicast seqno intervalCs subTlvs
              (s.neighbours.get? neighbour)).1 }
  | sampled (sample : UInt32) :
      Observation neighbour now tlvs s []
        { s with
          neighbours := s.neighbours.modify neighbour fun known =>
            { known with metric := NeighborMetric.onRttSample known.metric sample now } }
  | confirmed {address : Option IpAddr} {rxcost intervalCs : UInt16} {subTlvs : List SubTlv}
      (listed : Tlv.ihu address rxcost intervalCs subTlvs ∈ tlvs) :
      Observation neighbour now tlvs s []
        { s with
          neighbours := s.neighbours.modify neighbour (Neighbor.onIhuTlv rxcost intervalCs now) }
  | recomputed :
      Observation neighbour now tlvs s [] (s.recomputeCandidateMetrics (some neighbour)).1

theorem Observation.senses (observation : Observation neighbour now tlvs s actions t) :
    actions = [] ∧ Senses s t := by
  have kept : Fades s s := Fades.of_kept fun _ _ found => found
  cases observation with
  | refused => exact ⟨rfl, ⟨rfl, rfl, rfl, rfl, rfl, rfl, rfl, rfl, rfl, kept⟩, rfl, rfl⟩
  | greeted _ _ _ _ => exact ⟨rfl, ⟨rfl, rfl, rfl, rfl, rfl, rfl, rfl, rfl, rfl, kept⟩, rfl, rfl⟩
  | sampled _ => exact ⟨rfl, ⟨rfl, rfl, rfl, rfl, rfl, rfl, rfl, rfl, rfl, kept⟩, rfl, rfl⟩
  | confirmed _ => exact ⟨rfl, ⟨rfl, rfl, rfl, rfl, rfl, rfl, rfl, rfl, rfl, kept⟩, rfl, rfl⟩
  | recomputed =>
    exact ⟨rfl, ⟨rfl, rfl, rfl, rfl, rfl, rfl, rfl, rfl, rfl,
      recomputeCandidateMetrics_fades (some neighbour) s⟩, rfl, rfl⟩

theorem observations_senses (observes : Steps (Observation neighbour now tlvs) s actions t) :
    Senses s t := by
  induction observes with
  | refl s => exact Senses.refl s
  | step taken _ ih => exact taken.senses.2.trans ih

/-- What an event does before reselection. -/
inductive Prelude (now : UInt64) (s : Engine P M) : List Action → Engine P M → Prop
  | sensed {t : Engine P M} (silent : Silent now s t) : Prelude now s [] t
  | collected : Prelude now s [] (s.collectExpired now)
  | invalidated : Prelude now s [.invalidatePendingSends] s

theorem Prelude.selected (prelude : Prelude now s actions t) : t.selected = s.selected := by
  cases prelude with
  | sensed silent => exact silent.senses.selected
  | collected => rfl
  | invalidated => rfl

theorem Prelude.fades (prelude : Prelude now s actions t) : Fades s t := by
  cases prelude with
  | sensed silent => exact silent.senses.fades
  | collected => exact Fades.of_kept fun _ _ found => found
  | invalidated => exact Fades.of_kept fun _ _ found => found

end Silent

/-! ## Moves -/

/-- The keys that are originated once an event is handled. -/
def originsAfter (s : Engine P M) (event : Event P) (key : RouteKey) : Bool :=
  match event with
  | .originate origin _ _ => decide (key = origin) || s.originated.containsKey key
  | .withdraw origin _ => decide (key ≠ origin) && s.originated.containsKey key
  | .replaceOrigins origins _ => origins.containsKey key
  | _ => s.originated.containsKey key

/-- How an event that finds the engine in `before` edits the local origins ahead of
reselection: an origin it installs has the event's metric and the current number. -/
inductive Edit (before : Engine P M) (event : Event P) (s : Engine P M) :
    List Action → Engine P M → Prop
  | scheduled (key : RouteKey) : Edit before event s [] (s.repeatAdvertisement key event.now)
  | lifted (key : RouteKey) :
      Edit before event s (routeSnapshot { s with tombstones := s.tombstones.remove key }).2
        (routeSnapshot { s with tombstones := s.tombstones.remove key }).1
  | bumped :
      Edit before event s [.sequenceNumberChanged (s.sequenceNumber + 1)] s.bumpSequenceNumber
  | reoriginated (origins : OrdMap RouteKey Originated)
      (own : ∀ key, origins.containsKey key = before.originsAfter event key)
      (fresh : ∀ key origin, origins.get? key = some origin →
        s.originated.get? key = some origin ∨
          origin.seqno = s.sequenceNumber ∧ event.originMetric key = some origin.metric) :
      Edit before event s [] { s with originated := origins }

inductive Reselects (now : UInt64) (s : Engine P M) : List Action → Engine P M → Prop
  | skipped : Reselects now s [] s
  | taken (order : HashOrder) :
      Reselects now s (reselect order now s).2 (reselect order now s).1

/-- What is sent or scheduled from tables that stay as they are. -/
inductive Utterance (ticks : Bool) (now : UInt64) (s : Engine P M) : List Action → Engine P M → Prop
  | updates (only : Option RouteKey) (interface : Option InterfaceName)
      (timing : Option SendTiming) :
      Utterance ticks now s (sendUpdates now only interface timing s).2
        (sendUpdates now only interface timing s).1
  | repeated (key : RouteKey) : Utterance ticks now s [] (s.repeatAdvertisement key now)
  | deferred (pendingAdvertisements : OrdMap RouteKey (UInt64 × Nat)) :
      Utterance ticks now s [] { s with pendingAdvertisements := pendingAdvertisements }
  | rescheduled (interface : InterfaceName) (change : InterfaceState P → InterfaceState P)
      (kept : ∀ state, (change state).localAddresses = state.localAddresses ∧
        (change state).policy = state.policy) :
      Utterance ticks now s [] { s with interfaces := s.interfaces.modify interface change }
  | hello {interface : InterfaceName} {state : InterfaceState P}
      (up : s.interfaces.get? interface = some state) (stamp : Option UInt32)
      (timing : SendTiming) :
      Utterance ticks now s
        [.send interface state.policy.controlTransport.multicast
          ⟨[.hello false (state.helloSeqno + 1) state.policy.helloIntervalCs
            (stamp.map SubTlv.timestampHello).toList]⟩ timing] s
  | greeted {key : NeighborKey} {state : InterfaceState P} {neighbour : Neighbor M}
      (up : s.interfaces.get? key.interface = some state)
      (known : s.neighbours.get? key = some neighbour) (probe : Option (UInt16 × UInt32))
      (echo : Option (UInt32 × UInt32)) (paired : echo.isSome = true → probe.isSome = true)
      (rxcost : UInt16) (nextIhuMs : UInt64) (nextRttProbeMs : Option UInt64)
      (timing : SendTiming) :
      Utterance ticks now s
        [.send key.interface key.address
          ⟨(probe.map fun sent => OutboundTlv.hello true sent.1 0 [.timestampHello sent.2]).toList ++
            [.ihu none rxcost (satMul16 state.policy.helloIntervalCs 3)
              (echo.map fun pair => SubTlv.timestampIhu pair.1 pair.2).toList]⟩ timing]
        { s with
          neighbours := s.neighbours.insert key
            { neighbour with
              nextIhuMs := nextIhuMs
              nextRttProbeMs := nextRttProbeMs
              unicastHelloSeqno := (probe.map Prod.fst).getD neighbour.unicastHelloSeqno } }
  | retries (order : HashOrder) (ticking : ticks = true) :
      Utterance ticks now s (retryRequests order now s).2 (retryRequests order now s).1
  | asked {interface : InterfaceName} {state : InterfaceState P}
      (up : s.interfaces.get? interface = some state) :
      Utterance ticks now s [wildcardRequest interface state now] s
  | refreshed (key : RouteKey) (neighbour : NeighborKey) (timing : SendTiming) :
      Utterance ticks now s
        [.send neighbour.interface neighbour.address ⟨[.routeRequest (some key) []]⟩ timing] s
  | retracted (key : RouteKey) (foreign : s.originated.get? key = none)
      (unselected : s.selected.get? key = none) :
      Utterance ticks now s (s.sendRetraction key s.sequenceNumber now) s

/-- The single moves of the output that concludes an event. -/
inductive Output (ticks : Bool) (now : UInt64) (s : Engine P M) : List Action → Engine P M → Prop
  | said {actions : List Action} {t : Engine P M} (utterance : Utterance ticks now s actions t) :
      Output ticks now s actions t
  | reported : Output ticks now s (routeSnapshot s).2 (routeSnapshot s).1
  | held (key : RouteKey) (unselected : s.selected.get? key = none)
      (withdrawn : s.originated.get? key = none) : Output ticks now s [] (s.holdWithdrawal key now)
  | lifted (key : RouteKey) (own : s.originated.containsKey key = true) :
      Output ticks now s [] { s with tombstones := s.tombstones.remove key }

/-- What such a move can do: announce from unchanged tables, report, hold or lift. -/
inductive Coda (now : UInt64) (s : Engine P M) : List Action → Engine P M → Prop
  | announced {actions : List Action} {t : Engine P M}
      (announces : Announces nothingLost now s actions t) : Coda now s actions t
  | reported : Coda now s (routeSnapshot s).2 (routeSnapshot s).1
  | held (key : RouteKey) (unselected : s.selected.get? key = none)
      (withdrawn : s.originated.get? key = none) : Coda now s [] (s.holdWithdrawal key now)
  | lifted (key : RouteKey) (own : s.originated.containsKey key = true) :
      Coda now s [] { s with tombstones := s.tombstones.remove key }

/-- Output in which every change of the held keys is reported before it ends. -/
inductive Conclusion (ticks : Bool) (now : UInt64) (s : Engine P M) :
    List Action → Engine P M → Prop
  | said {actions : List Action} {t : Engine P M} (utterance : Utterance ticks now s actions t) :
      Conclusion ticks now s actions t
  | settled {actions : List Action} {middle : Engine P M}
      (outputs : Steps (Output ticks now) s actions middle) :
      Conclusion ticks now s (actions ++ (routeSnapshot middle).2) (routeSnapshot middle).1

/-- Preparation, at most one reselection, conclusion. -/
inductive Phase (prepare : Engine P M → List Action → Engine P M → Prop) (ticks : Bool) (now : UInt64)
    (s : Engine P M) : List Action → Engine P M → Prop
  | mk {middle chosen t : Engine P M} {first second third : List Action}
      (prelude : Steps prepare s first middle)
      (reselects : Reselects now middle second chosen)
      (coda : Steps (Conclusion ticks now) chosen third t) :
      Phase prepare ticks now s (first ++ second ++ third) t

section Utterances
variable {ticks : Bool}

theorem Utterance.announces {gone : RouteKey → Prop} (utterance : Utterance ticks now s actions t) :
    Announces gone now s actions t := by
  cases utterance with
  | updates only interface timing => exact sendUpdates_announces only interface timing s
  | repeated key =>
    exact Announces.wordless (quiet_repeatAdvertisement key s) rfl (by simp) (by simp)
  | deferred pendingAdvertisements =>
    exact Announces.wordless
      ⟨⟨rfl, rfl, fun _ => rfl, rfl, rfl, rfl, rfl, rfl, rfl, rfl⟩, rfl⟩ rfl (by simp) (by simp)
  | rescheduled interface change kept =>
    exact Announces.wordless ⟨⟨rfl, links_modify s interface change kept,
      fun _ => rfl, rfl, rfl, rfl, rfl, rfl, rfl, rfl⟩, rfl⟩ rfl (by simp) (by simp)
  | hello up stamp timing =>
    exact Announces.wordless (Quiet.refl s) rfl (by simp [Action.isSend])
      (by simp [Action.sent, sentOn, updatesOf])
  | greeted up known probe echo paired rxcost nextIhuMs nextRttProbeMs timing =>
    refine Announces.wordless ⟨⟨rfl, rfl, adjacency_reschedule s known _ _ _, rfl, rfl,
      rfl, rfl, rfl, rfl, rfl⟩, rfl⟩ rfl (by simp [Action.isSend]) ?_
    cases probe <;> simp [Action.sent, sentOn, updatesOf]
  | retries order _ => exact retryRequests_announces order s
  | asked up =>
    exact Announces.wordless (Quiet.refl s) rfl (by simp [wildcardRequest, Action.isSend])
      (by simp [wildcardRequest, Action.sent, sentOn, updatesOf])
  | refreshed key neighbour timing =>
    exact Announces.wordless (Quiet.refl s) rfl (by simp [Action.isSend])
      (by simp [Action.sent, sentOn, updatesOf])
  | retracted key foreign unselected =>
    exact sendRetraction_announces s key s.sequenceNumber
      fun sent named infinite => .absent key named infinite foreign unselected

theorem utterances_announces {gone : RouteKey → Prop}
    (utterances : Steps (Utterance ticks now) s actions t) : Announces gone now s actions t :=
  utterances.fold (announces_chains gone now) Utterance.announces

theorem utterances_outputs (utterances : Steps (Utterance ticks now) s actions t) :
    Steps (Output ticks now) s actions t :=
  utterances.fold (steps_chains _) fun utterance => .single (.said utterance)

theorem utterances_coda (utterances : Steps (Utterance ticks now) s actions t) :
    Steps (Conclusion ticks now) s actions t :=
  utterances.fold (steps_chains _) fun utterance => .single (.said utterance)

theorem Conclusion.outputs (conclusion : Conclusion ticks now s actions t) :
    Steps (Output ticks now) s actions t := by
  cases conclusion with
  | said utterance => exact .single (.said utterance)
  | settled outputs => exact (steps_chains _).trans outputs (.single .reported)

theorem conclusions_outputs (coda : Steps (Conclusion ticks now) s actions t) :
    Steps (Output ticks now) s actions t :=
  coda.fold (steps_chains _) Conclusion.outputs

theorem Output.coda (output : Output ticks now s actions t) : Coda now s actions t := by
  cases output with
  | said utterance => exact .announced utterance.announces
  | reported => exact .reported
  | held key unselected withdrawn => exact .held key unselected withdrawn
  | lifted key own => exact .lifted key own

end Utterances

theorem Edit.selected {before : Engine P M} {event : Event P}
    (edit : Edit before event s actions t) : t.selected = s.selected := by
  cases edit with
  | scheduled _ => rfl
  | lifted _ => rfl
  | bumped => rfl
  | reoriginated _ _ _ => rfl

/-- The tables that the conclusion of an event leaves alone. -/
structure SameRoutes (s t : Engine P M) : Prop where
  config : t.config = s.config
  links : t.links = s.links
  candidates : t.candidates = s.candidates
  selected : t.selected = s.selected
  originated : t.originated = s.originated
  sequenceNumber : t.sequenceNumber = s.sequenceNumber
  switching : t.switching = s.switching

theorem SameRoutes.refl (s : Engine P M) : SameRoutes s s := ⟨rfl, rfl, rfl, rfl, rfl, rfl, rfl⟩

theorem SameRoutes.trans (first : SameRoutes s middle) (second : SameRoutes middle t) :
    SameRoutes s t where
  config := second.config.trans first.config
  links := second.links.trans first.links
  candidates := second.candidates.trans first.candidates
  selected := second.selected.trans first.selected
  originated := second.originated.trans first.originated
  sequenceNumber := second.sequenceNumber.trans first.sequenceNumber
  switching := second.switching.trans first.switching

theorem Quiet.sameRoutes (quiet : Quiet s t) : SameRoutes s t :=
  ⟨quiet.config, quiet.links, quiet.candidates, quiet.selected, quiet.originated,
    quiet.sequenceNumber, quiet.switching⟩

theorem Coda.sameRoutes (coda : Coda now s actions t) : SameRoutes s t := by
  cases coda with
  | announced announces => exact announces.quiet.sameRoutes
  | reported => exact ⟨rfl, rfl, rfl, rfl, rfl, rfl, rfl⟩
  | held _ _ _ => exact ⟨rfl, rfl, rfl, rfl, rfl, rfl, rfl⟩
  | lifted _ _ => exact ⟨rfl, rfl, rfl, rfl, rfl, rfl, rfl⟩

theorem outputs_sameRoutes {ticks : Bool} (outputs : Steps (Output ticks now) s actions t) :
    SameRoutes s t := by
  induction outputs with
  | refl s => exact SameRoutes.refl s
  | step taken _ ih => exact taken.coda.sameRoutes.trans ih

theorem Reselects.tables (reselects : Reselects now s actions t) : ReselectTables s t := by
  cases reselects with
  | skipped => exact ⟨rfl, rfl, fun _ => rfl, rfl, rfl, rfl, rfl⟩
  | taken order => exact reselect_tables order now s

section Rules
variable {ticks : Bool} {now : UInt64}
  {prepare : Engine P M → List Action → Engine P M → Prop}

theorem Phase.after_prelude {first rest : List Action}
    (phase : Phase prepare ticks now middle rest t) (prelude : Steps prepare s first middle) :
    Phase prepare ticks now s (first ++ rest) t := by
  obtain ⟨early, reselects, coda⟩ := phase
  rw [← List.append_assoc, ← List.append_assoc]
  exact .mk ((steps_chains _).trans prelude early) reselects coda

theorem Phase.then_coda {first rest : List Action} (phase : Phase prepare ticks now s first middle)
    (coda : Steps (Conclusion ticks now) middle rest t) :
    Phase prepare ticks now s (first ++ rest) t := by
  obtain ⟨prelude, reselects, early⟩ := phase
  rw [List.append_assoc]
  exact .mk prelude reselects ((steps_chains _).trans early coda)

theorem meets_phase_prelude {first second : Effect (Engine P M) Action}
    (prelude : Meets (Steps prepare) first)
    (phase : Meets (Phase prepare ticks now) second) :
    Meets (Phase prepare ticks now) (andThen first second) :=
  fun s => (phase (first s).1).after_prelude (prelude s)

theorem meets_phase_coda {first second : Effect (Engine P M) Action}
    (phase : Meets (Phase prepare ticks now) first)
    (utterances : Meets (Steps (Utterance ticks now)) second) :
    Meets (Phase prepare ticks now) (andThen first second) :=
  fun s => (phase s).then_coda (utterances_coda (utterances (first s).1))

theorem Reselects.phase (reselects : Reselects now s actions t) :
    Phase prepare ticks now s actions t := by
  have phase : Phase prepare ticks now s ([] ++ actions ++ []) t := .mk (.refl s) reselects (.refl t)
  simpa using phase

theorem phase_of_utterances (utterances : Steps (Utterance ticks now) s actions t) :
    Phase prepare ticks now s actions t :=
  (Reselects.skipped.phase).then_coda (utterances_coda utterances)

theorem reselect_phase (s : Engine P M) :
    Phase prepare ticks now s (reselect order now s).2 (reselect order now s).1 :=
  (Reselects.taken order).phase

theorem when_reselects (condition : Engine P M → Bool) (s : Engine P M) :
    Reselects now s (when condition (reselect order now) s).2
      (when condition (reselect order now) s).1 := by
  unfold when
  split
  · exact .taken order
  · exact .skipped

theorem output_chains (ticks : Bool) (now : UInt64) :
    Chains (Steps (Output (P := P) (M := M) ticks now)) :=
  steps_chains _

theorem utterance_chains (ticks : Bool) (now : UInt64) :
    Chains (Steps (Utterance (P := P) (M := M) ticks now)) :=
  steps_chains _

/-! ## Events that only tick, send or reselect -/

section Aging
variable [NeighborMetric M] [MetricProfile P M]

theorem recomputeEach_prelude (keys : List NeighborKey) (s : Engine P M) :
    Steps (Prelude now) s [] (s.recomputeEach keys).1 := by
  refine List.foldlRecOn keys _
    (motive := fun (state : Engine P M × Bool) => Steps (Prelude now) s [] state.1)
    (.refl s) fun state steps key _ => ?_
  exact (steps_chains _).trans steps (.single (.sensed (.recomputed (some key))))

theorem ageState_prelude (s : Engine P M) :
    Steps (Prelude now) s [] (s.ageState order now).engine := by
  have swept : Prelude now (s.agedTables order now).1 []
      ((s.agedTables order now).1.collectExpired now) := .collected
  exact .step (.sensed .aged) (.step (.sensed .silenced) (.step (.sensed .unheard)
    (.step (.sensed .expired) (.step (.sensed (.refreshed order)) (.step swept
      (recomputeEach_prelude _ _))))))

end Aging

theorem sendUpdates_utters (only : Option RouteKey) (interface : Option InterfaceName)
    (timing : Option SendTiming) (s : Engine P M) :
    Steps (Utterance ticks now) s (sendUpdates now only interface timing s).2
      (sendUpdates now only interface timing s).1 :=
  .single (.updates only interface timing)

theorem wildcardRequests_utters {entries : List (InterfaceName × InterfaceState P)} (s : Engine P M)
    (up : ∀ entry ∈ entries, s.interfaces.get? entry.1 = some entry.2) :
    Steps (Utterance ticks now) s (entries.map fun entry => wildcardRequest entry.1 entry.2 now) s := by
  induction entries with
  | nil => exact .refl s
  | cons entry rest ih =>
    have first : Utterance ticks now s [wildcardRequest entry.1 entry.2 now] s :=
      .asked (up entry List.mem_cons_self)
    exact .step first (ih fun other member => up other (List.mem_cons_of_mem _ member))

theorem repeatEach_utters (keys : List RouteKey) (s : Engine P M) :
    Steps (Utterance ticks now) s []
      (keys.foldl (fun engine key => engine.repeatAdvertisement key now) s) := by
  induction keys generalizing s with
  | nil => exact .refl s
  | cons key rest ih => exact .step (.repeated key) (ih (s.repeatAdvertisement key now))

/-- Everything a replaced route policy sends after its reselection. -/
def policyOutput (now : UInt64) : Effect (Engine P M) Action :=
  andThen (Effect.update (announceAll now))
    (andThen (sendUpdates now none none (some (SendTiming.urgent now)))
      (emit fun engine =>
        engine.interfaces.entries.map fun entry => wildcardRequest entry.1 entry.2 now))

theorem policyOutput_utters :
    Meets (Steps (Utterance (P := P) (M := M) ticks now)) (policyOutput now) := by
  have scheduled : Meets (Steps (Utterance (P := P) (M := M) ticks now))
      (Effect.update (announceAll now)) := fun u => repeatEach_utters _ u
  have asked : Meets (Steps (Utterance (P := P) (M := M) ticks now))
      (emit fun engine =>
        engine.interfaces.entries.map fun entry => wildcardRequest entry.1 entry.2 now) := by
    exact fun u => wildcardRequests_utters u fun entry member => OrdMap.get?_eq_some_iff.mpr member
  exact meets_andThen (utterance_chains _ now) scheduled
    (meets_andThen (utterance_chains _ now) (sendUpdates_utters _ _ _) asked)

section Handled
variable [NeighborMetric M] [MetricProfile P M]

/-- A silent reconfiguration, then one phase. -/
def Handled (ticks : Bool) (now : UInt64) (s : Engine P M) (actions : List Action) (t : Engine P M) : Prop :=
  ∃ start, Reconfiguration now s start ∧ Phase (Prelude now) ticks now start actions t

theorem meets_handled {change : Engine P M → Engine P M} {rest : Effect (Engine P M) Action}
    (reconfigures : ∀ s, Reconfiguration now s (change s))
    (phase : Meets (Phase (Prelude now) ticks now) rest) :
    Meets (Handled ticks now) (andThen (Effect.update change) rest) :=
  fun s => ⟨change s, reconfigures s, phase (change s)⟩

theorem Phase.handled (phase : Phase (Prelude now) ticks now s actions t) :
    Handled ticks now s actions t :=
  ⟨s, .unchanged, phase⟩

theorem unchanged_handled (s : Engine P M) : Handled ticks now s [] s :=
  (Reselects.skipped.phase).handled

theorem interfaceDown_handled (s : Engine P M) :
    Handled ticks now s (interfaceDown order interface now s).2
      (interfaceDown order interface now s).1 :=
  ⟨s.removeInterface interface, .removed interface, reselect_phase order _⟩

theorem interfaceAddressesChanged_handled (s : Engine P M) :
    Handled ticks now s (interfaceAddressesChanged interface localAddresses now s).2
      (interfaceAddressesChanged interface localAddresses now s).1 := by
  unfold interfaceAddressesChanged
  split
  · exact unchanged_handled s
  · exact ⟨s.setAddresses interface localAddresses, .readdressed interface localAddresses,
      phase_of_utterances (sendUpdates_utters _ _ _ _)⟩

theorem replaceRoutePolicy_handled (policy : RoutePolicy) :
    Meets (Handled (P := P) (M := M) ticks now) (replaceRoutePolicy order policy now) := by
  have invalidated : Meets (Steps (Prelude (P := P) (M := M) now))
      (emit fun _ => [.invalidatePendingSends]) := fun u => .single .invalidated
  exact meets_handled (fun s => .replaced policy) (meets_phase_prelude invalidated
    (meets_phase_coda (reselect_phase order) policyOutput_utters))

end Handled

/-! ## Local origins -/

theorem edit_chains (before : Engine P M) (event : Event P) :
    Chains (Steps (Edit before event)) :=
  steps_chains _

theorem announceBump_edit (before : Engine P M) (event : Event P) :
    Meets (Steps (Edit before event)) announceBump :=
  fun _ => .single .bumped

theorem bump_owned (condition : Engine P M → Bool) (s : Engine P M) (key : RouteKey) :
    (when condition announceBump s).1.originated.containsKey key =
      s.originated.containsKey key := by
  unfold when
  split
  · simp [announceBump, bumpSequenceNumber, OrdMap.containsKey]
  · rfl

theorem liftHold_originated (key : RouteKey) (s : Engine P M) :
    (liftHold key s).1.originated = s.originated := by
  unfold liftHold when
  split
  · rfl
  · rfl

theorem installOrigin_owned (key : RouteKey) (metric : UInt16) (s : Engine P M) (other : RouteKey) :
    (installOrigin key metric now s).1.originated.containsKey other =
      s.originsAfter (.originate key metric now) other := by
  show OrdMap.containsKey (OrdMap.insert _ key _) other = _
  rw [OrdMap.containsKey, OrdMap.get?_insert, originsAfter]
  by_cases here : key = other
  · simp [here]
  · -- The other keys are those of the state before: neither lifting nor bumping adds one.
    rw [if_neg here, decide_eq_false (Ne.symm here), Bool.false_or, ← liftHold_originated key s]
    exact bump_owned _ (repeatAdvertisement key now (liftHold key s).1) other

theorem installOrigin_edit (key : RouteKey) (metric : UInt16) (s : Engine P M) :
    Steps (Edit s (.originate key metric now)) s
      (installOrigin key metric now s).2 (installOrigin key metric now s).1 := by
  have chains := edit_chains s (.originate key metric now)
  have lifted : Meets (Steps (Edit s (.originate key metric now))) (liftHold key) :=
    meets_when chains fun u _ => .single (.lifted key)
  have bumped : ∀ condition : Engine P M → Bool, Meets (Steps (Edit s _))
      (when condition announceBump) := fun condition =>
    meets_when chains fun u _ => announceBump_edit s _ u
  have fresh : ∀ (u : Engine P M) (other : RouteKey) (origin : Originated),
      (u.originated.insert key ⟨metric, u.sequenceNumber⟩).get? other = some origin →
        u.originated.get? other = some origin ∨ origin.seqno = u.sequenceNumber ∧
          (Event.originate (P := P) key metric now).originMetric other = some origin.metric := by
    intro u other origin found
    rw [OrdMap.get?_insert] at found
    split_ifs at found with same
    · cases found
      exact Or.inr ⟨rfl, by simp [Event.originMetric, same]⟩
    · exact Or.inl found
  exact chains.trans (lifted s) (chains.trans
    (.single (.scheduled key)) (chains.trans (bumped _ _)
      (.single (.reoriginated _ (installOrigin_owned key metric s) (fresh _)))))

theorem setOrigin_utters (key : RouteKey) (metric : UInt16) (s : Engine P M) :
    Steps (Utterance false now) (reselect order now (installOrigin key metric now s).1).1
      (sendUpdates now (some key) none none
        (reselect order now (installOrigin key metric now s).1).1).2
      (setOrigin order key metric now s).1 :=
  sendUpdates_utters _ _ _ _

theorem originate_phase (key : RouteKey) (metric : UInt16) (s : Engine P M) :
    Phase (Edit s (.originate key metric now)) false now s
      (originate order key metric now s).2 (originate order key metric now s).1 := by
  unfold originate
  split
  · exact Reselects.skipped.phase
  · exact ((reselect_phase order _).then_coda
      (utterances_coda (setOrigin_utters order key metric s))).after_prelude
        (installOrigin_edit key metric s)

/-- Origins survive reselection. -/
theorem reselect_unoriginated {order : HashOrder} {key : RouteKey}
    (absent : s.originated.get? key = none) :
    (reselect order now s).1.originated.get? key = none := by
  rw [(reselect_tables order now s).originated]
  exact absent

theorem holdRemoved_coda (key : RouteKey) (existed : Bool) (s : Engine P M)
    (absent : s.originated.get? key = none) :
    Steps (Conclusion false now) s
      (when (fun engine => existed && !engine.selected.containsKey key)
        (andThen (Effect.update (holdWithdrawal key now)) routeSnapshot) s).2
      (when (fun engine => existed && !engine.selected.containsKey key)
        (andThen (Effect.update (holdWithdrawal key now)) routeSnapshot) s).1 := by
  unfold when
  split
  next holds =>
    have unselected := (Bool.and_eq_true_iff.mp holds).2
    rw [Bool.not_eq_true', OrdMap.containsKey_eq_false] at unselected
    exact .single (.settled (.single (.held key unselected absent)))
  next => exact .refl s

theorem repeatThenSend_utters (key : RouteKey) :
    Meets (Steps (Utterance (P := P) (M := M) false now))
      (andThen (Effect.update (repeatAdvertisement key now))
        (sendUpdates now (some key) none (some (SendTiming.urgent now)))) :=
  meets_andThen (utterance_chains _ now)
    (fun _ => .single (.repeated key)) (sendUpdates_utters _ _ _)

theorem removeOrigin_coda (key : RouteKey) (existed : Bool) (now : UInt64) (s : Engine P M) :
    ∃ after, (removeOrigin order key existed now s).2 =
        (reselect order now { s with originated := s.originated.remove key }).2 ++ after ∧
      Steps (Conclusion false now)
        (reselect order now { s with originated := s.originated.remove key }).1 after
        (removeOrigin order key existed now s).1 := by
  have absent : (reselect order now { s with originated := s.originated.remove key }).1.originated.get?
      key = none := by
    apply reselect_unoriginated
    rw [OrdMap.get?_remove, if_pos rfl]
  have sent : Meets (Steps (Utterance (P := P) (M := M) false now))
      (when (fun _ => existed)
        (andThen (Effect.update (repeatAdvertisement key now))
          (sendUpdates now (some key) none (some (SendTiming.urgent now))))) :=
    meets_when (utterance_chains _ now) fun u _ => repeatThenSend_utters key u
  exact ⟨_, rfl, (steps_chains _).trans (holdRemoved_coda key existed _ absent)
    (utterances_coda (sent _))⟩

theorem removeOrigin_owned (key : RouteKey) (s : Engine P M) (other : RouteKey) :
    (s.originated.remove key).containsKey other = s.originsAfter (.withdraw key now) other := by
  rw [OrdMap.containsKey, OrdMap.get?_remove, originsAfter]
  by_cases here : other = key
  · simp [here]
  · rw [if_neg here, decide_eq_true here, Bool.true_and]
    rfl

theorem removeOrigin_edit (key : RouteKey) (s : Engine P M) :
    Edit s (.withdraw key now) s [] { s with originated := s.originated.remove key } :=
  .reoriginated _ (removeOrigin_owned key s) fun other origin found => by
    rw [OrdMap.get?_remove] at found
    split_ifs at found
    exact Or.inl found

theorem removeOrigin_phase (key : RouteKey) (existed : Bool) (s : Engine P M) :
    Phase (Edit s (.withdraw key now)) false now s (removeOrigin order key existed now s).2
      (removeOrigin order key existed now s).1 := by
  obtain ⟨after, actions, coda⟩ := removeOrigin_coda order key existed now s
  rw [actions]
  exact ((reselect_phase order _).then_coda coda).after_prelude (.single (removeOrigin_edit key s))

/-- Held and retracted one by one, the removed origins stay removed. -/
theorem withdrawRemoved_coda (key : RouteKey) (s : Engine P M)
    (absent : s.originated.get? key = none) :
    Steps (Output false now) s (withdrawRemoved now key s).2 (withdrawRemoved now key s).1 := by
  have held : Steps (Output false now) s
      (when (A := Action) (fun engine => !engine.selected.containsKey key)
        (Effect.update (holdWithdrawal key now)) s).2
      (when (A := Action) (fun engine => !engine.selected.containsKey key)
        (Effect.update (holdWithdrawal key now)) s).1 := by
    unfold when
    split
    next unselected =>
      rw [Bool.not_eq_true', OrdMap.containsKey_eq_false] at unselected
      exact .single (.held key unselected absent)
    next => exact .refl s
  exact (output_chains _ now).trans held (utterances_outputs (repeatThenSend_utters key _))

theorem withdrawAll_coda (removed : List RouteKey) (s : Engine P M)
    (absent : ∀ key ∈ removed, s.originated.get? key = none) :
    Steps (Output false now) s (forEach removed (withdrawRemoved now) s).2
      (forEach removed (withdrawRemoved now) s).1 := by
  refine forEach_from (output_chains _ now)
    (fun u => ∀ key ∈ removed, u.originated.get? key = none) removed (withdrawRemoved now)
    ?_ ?_ s absent
  · intro u v outputs none coda key member
    rw [(outputs_sameRoutes coda).originated]
    exact none key member
  · intro key member u none
    exact withdrawRemoved_coda key u (none key member)

theorem announceOrigins_coda (s : Engine P M) :
    Steps (Output false now) s [] (s.announceOrigins now) := by
  have looped : ∀ (keys : List RouteKey) (u : Engine P M),
      (∀ key ∈ keys, u.originated.containsKey key = true) →
      Steps (Output false now) u [] (keys.foldl (fun engine key => repeatAdvertisement key now
        { engine with tombstones := engine.tombstones.remove key }) u) := by
    intro keys
    induction keys with
    | nil => exact fun u _ => .refl u
    | cons key rest ih =>
      intro u own
      have lifted : Steps (Output false now) u [] (repeatAdvertisement key now
          { u with tombstones := u.tombstones.remove key }) :=
        .step (Output.lifted key (own key List.mem_cons_self)) (.single (Output.said (.repeated key)))
      exact (output_chains _ now).trans lifted
        (ih _ fun other member => own other (List.mem_cons_of_mem _ member))
  exact looped _ s fun key member => OrdMap.mem_keys_iff.mp member

theorem installOrigins_owned (worse : Bool) (s : Engine P M) (key : RouteKey) :
    (installOrigins origins worse s).1.originated.containsKey key = origins.containsKey key := by
  show OrdMap.containsKey (OrdMap.mapValues _ _) key = _
  simp [OrdMap.containsKey]

/-- A key that a new origin set leaves out is no origin once that set is selected with. -/
theorem installOrigins_absent {order : HashOrder} {key : RouteKey} (worse : Bool) (s : Engine P M)
    (absent : origins.containsKey key = false) :
    (reselect order now (installOrigins origins worse s).1).1.originated.get? key = none := by
  apply reselect_unoriginated
  rw [← OrdMap.containsKey_eq_false, installOrigins_owned]
  exact absent

theorem installOrigins_edit (worse : Bool) (s : Engine P M) :
    Steps (Edit s (.replaceOrigins origins now)) s
      (installOrigins origins worse s).2 (installOrigins origins worse s).1 := by
  have chains := edit_chains s (.replaceOrigins origins now)
  have bumped : Meets (Steps (Edit s (.replaceOrigins origins now)))
      (when (fun _ => worse) announceBump) :=
    meets_when chains fun u _ => announceBump_edit s _ u
  refine chains.trans (bumped s) (.single (.reoriginated _ (installOrigins_owned origins worse s)
    fun key origin found => ?_))
  rw [OrdMap.get?_mapValues] at found
  obtain ⟨metric, listed, rfl⟩ := Option.map_eq_some_iff.mp found
  exact Or.inr ⟨rfl, listed⟩

theorem closeOrigins_coda :
    Meets (Steps (Output (P := P) (M := M) false now))
      (andThen (Effect.update (announceOrigins now))
        (andThen routeSnapshot (sendUpdates now none none none))) :=
  meets_andThen (output_chains _ now) announceOrigins_coda
    (meets_andThen (output_chains _ now) (fun _ => .single .reported)
      fun _ => utterances_outputs (sendUpdates_utters _ _ _ _))

/-- The announcement of a new origin set: one snapshot reports all holds it places and lifts. -/
theorem concludeOrigins_coda (removed : List RouteKey) (s : Engine P M)
    (absent : ∀ key ∈ removed, s.originated.get? key = none) :
    Steps (Conclusion false now) s
      (andThen (forEach removed (withdrawRemoved now))
        (andThen (Effect.update (announceOrigins now))
          (andThen routeSnapshot (sendUpdates now none none none))) s).2
      (andThen (forEach removed (withdrawRemoved now))
        (andThen (Effect.update (announceOrigins now))
          (andThen routeSnapshot (sendUpdates now none none none))) s).1 := by
  have withdrawn : Steps (Output false now) s _ _ := withdrawAll_coda removed s absent
  have held := (output_chains _ now).trans withdrawn (announceOrigins_coda _)
  have settled : Steps (Conclusion false now) s _ _ := .single (.settled held)
  have sent := (steps_chains _).trans settled (utterances_coda (sendUpdates_utters none none none _))
  simpa using sent

theorem replaceOrigins_phase (s : Engine P M) :
    Phase (Edit s (.replaceOrigins origins now)) false now s
      (replaceOrigins order origins now s).2 (replaceOrigins order origins now s).1 := by
  unfold replaceOrigins
  split
  · exact Reselects.skipped.phase
  · refine ((reselect_phase order _).then_coda (concludeOrigins_coda _ _ fun key member =>
      installOrigins_absent origins _ s ?_)).after_prelude (installOrigins_edit origins _ s)
    simpa using (List.mem_filter.mp member).2

section Metric
variable [NeighborMetric M]

/-! ## Packets -/

inductive Processes (neighbour : NeighborKey) (now : UInt64) :
    List Tlv → Engine P M → List Action → Engine P M → Prop
  | done (s : Engine P M) : Processes neighbour now [] s [] s
  | next {tlv : Tlv} {rest : List Tlv} {t : Engine P M} {later : List Action}
      (order : HashOrder) (state : ReceiveState P M)
      (processes : Processes neighbour now rest (receiveTlv order neighbour now tlv state).1.engine
        later t) :
      Processes neighbour now (tlv :: rest) state.engine
        ((receiveTlv order neighbour now tlv state).2 ++ later) t

theorem receiveTlvs_processes (neighbour : NeighborKey) (tlvs : List Tlv) (state : ReceiveState P M) :
    Processes neighbour now tlvs state.engine
      (forEach tlvs (receiveTlv order neighbour now) state).2
      (forEach tlvs (receiveTlv order neighbour now) state).1.engine := by
  induction tlvs generalizing state with
  | nil => exact .done state.engine
  | cons tlv rest ih =>
    exact .next order state (ih (receiveTlv order neighbour now tlv state).1)

/-- The part of the state that route TLVs leave alone. -/
structure Receives (s t : Engine P M) : Prop where
  config : t.config = s.config
  links : t.links = s.links
  selected : t.selected = s.selected
  tombstones : t.tombstones = s.tombstones
  advertisedUntil : t.advertisedUntil = s.advertisedUntil
  metrics : ∀ key, (t.originated.get? key).map Originated.metric =
    (s.originated.get? key).map Originated.metric
  switching : t.switching = s.switching

omit [NeighborMetric M] in
theorem Receives.owned (receives : Receives s t) (key : RouteKey) :
    t.originated.containsKey key = s.originated.containsKey key := by
  have same := congrArg Option.isSome (receives.metrics key)
  rwa [Option.isSome_map, Option.isSome_map] at same

omit [NeighborMetric M] in
theorem Receives.refl (s : Engine P M) : Receives s s :=
  ⟨rfl, rfl, rfl, rfl, rfl, fun _ => rfl, rfl⟩

omit [NeighborMetric M] in
theorem Receives.trans (first : Receives s middle) (second : Receives middle t) : Receives s t where
  config := second.config.trans first.config
  links := second.links.trans first.links
  selected := second.selected.trans first.selected
  tombstones := second.tombstones.trans first.tombstones
  advertisedUntil := second.advertisedUntil.trans first.advertisedUntil
  metrics := fun key => (second.metrics key).trans (first.metrics key)
  switching := second.switching.trans first.switching

omit [NeighborMetric M] in
theorem Frame.receives (frame : Frame s t) : Receives s t :=
  ⟨frame.config, frame.links, frame.selected, frame.tombstones, frame.advertisedUntil,
    fun _ => by rw [frame.originated], frame.switching⟩

theorem TlvEffect.receives {tlv : Tlv} {changed : Bool}
    (effect : TlvEffect neighbour now tlv s actions t changed) : Receives s t := by
  cases effect with
  | announced announces _ => exact announces.quiet.toFrame.receives
  | bumped key own announces _ =>
    have bumped : Receives s s.bumpSequenceNumber :=
      ⟨rfl, rfl, rfl, rfl, rfl, fun key => by
        simp [bumpSequenceNumber, Function.comp_def], rfl⟩
    exact bumped.trans announces.quiet.toFrame.receives
  | updated update isUpdate effect =>
    cases effect with
    | announced announces _ => exact announces.quiet.toFrame.receives
    | retractedAll _ _ => exact ⟨rfl, rfl, rfl, rfl, rfl, fun _ => rfl, rfl⟩
    | retracted _ _ _ => exact ⟨rfl, rfl, rfl, rfl, rfl, fun _ => rfl, rfl⟩
    | rejected finite _ =>
      simp only [rejectByPolicy]
      split
      · exact ⟨rfl, rfl, rfl, rfl, rfl, fun _ => rfl, rfl⟩
      · exact Receives.refl s
    | limited _ => exact ⟨rfl, rfl, rfl, rfl, rfl, fun _ => rfl, rfl⟩
    | stored finite state resolved admitted known _ current requests =>
      have settled := (requests_quiet requests).toFrame.receives
      exact settled.trans ⟨rfl, rfl, rfl, rfl, rfl, fun _ => rfl, rfl⟩

theorem receiveTlv_receives (neighbour : NeighborKey) (tlv : Tlv) (state : ReceiveState P M) :
    Receives state.engine (receiveTlv order neighbour now tlv state).1.engine := by
  obtain ⟨_, _, effect⟩ := receiveTlv_effect order neighbour now tlv state
  exact effect.receives

theorem Processes.receives (processes : Processes neighbour now tlvs s actions t) :
    Receives s t := by
  induction processes with
  | done s => exact Receives.refl s
  | next order state _ ih => exact (receiveTlv_receives order neighbour _ state).trans ih

omit [NeighborMetric M] in
theorem retractCandidate_faded (candidate : Candidate) :
    (retractCandidate candidate).Faded candidate :=
  ⟨rfl, rfl, rfl, rfl, rfl, Or.inr rfl⟩

/-- A candidate after a TLV faded from an earlier one, or is the content of an
admitted finite Update. -/
theorem TlvEffect.candidates {tlv : Tlv} {changed : Bool}
    (effect : TlvEffect neighbour now tlv s actions t changed) {entry : RouteKey × NeighborKey}
    {candidate : Candidate} (found : t.candidates.get? entry = some candidate) :
    (∃ old, s.candidates.get? entry = some old ∧ candidate.Faded old) ∨
      ∃ update finite metric, tlv = .update update ∧ resolvedFinite update = some finite ∧
        s.admissible neighbour finite = true ∧ entry = (finite.key, neighbour) ∧
        candidate = storedCandidate neighbour finite metric now := by
  have kept : ∀ {u : Engine P M}, u.candidates = s.candidates → u.candidates.get? entry =
      some candidate → ∃ old, s.candidates.get? entry = some old ∧ candidate.Faded old := by
    intro u same stored
    rw [same] at stored
    exact ⟨candidate, stored, rfl, rfl, rfl, rfl, rfl, Or.inl rfl⟩
  cases effect with
  | announced announces _ => exact Or.inl (kept announces.quiet.candidates found)
  | bumped key own announces _ => exact Or.inl (kept announces.quiet.candidates found)
  | updated update isUpdate effect =>
    cases effect with
    | announced announces _ => exact Or.inl (kept announces.quiet.candidates found)
    | retractedAll _ _ =>
      left
      simp only [retractAll, AssocMap.get?_mapValues, Option.map_eq_some_iff] at found
      obtain ⟨old, stored, rfl⟩ := found
      refine ⟨old, stored, ?_⟩
      split
      · exact retractCandidate_faded old
      · exact ⟨rfl, rfl, rfl, rfl, rfl, Or.inl rfl⟩
    | retracted _ _ _ =>
      left
      simp only [retractOne, AssocMap.get?_modify, Option.map_eq_some_iff] at found
      obtain ⟨old, stored, rfl⟩ := found
      refine ⟨old, stored, ?_⟩
      split
      · exact retractCandidate_faded old
      · exact ⟨rfl, rfl, rfl, rfl, rfl, Or.inl rfl⟩
    | rejected finite _ =>
      left
      simp only [rejectByPolicy] at found
      split at found
      · simp only [AssocMap.get?_remove] at found
        split at found
        · cases found
        · exact kept rfl found
      · exact kept rfl found
    | limited _ => exact Or.inl (kept rfl found)
    | stored finite state resolved admitted known _ current requests =>
      simp only [storeCandidate, AssocMap.get?_insert] at found
      split at found
      next same =>
        exact Or.inr ⟨update, finite, _, isUpdate, resolved, admitted, same.symm,
          (Option.some.inj found).symm⟩
      next => exact Or.inl (kept (requests_quiet requests).candidates found)

omit [NeighborMetric M] in
theorem announceRouterIdChange_utters (key : RouteKey) :
    Meets (Steps (Utterance (P := P) (M := M) ticks now)) (announceRouterIdChange now key) := by
  intro s
  unfold announceRouterIdChange
  split_ifs with live
  · exact sendUpdates_utters _ _ _ s
  · simp only [Bool.or_eq_true, not_or, Bool.not_eq_true, OrdMap.containsKey_eq_false] at live
    exact .single (.retracted key live.1 live.2)

omit [NeighborMetric M] in
theorem announceRouterIdChanges_utters (keys : List RouteKey) :
    Meets (Steps (Utterance (P := P) (M := M) ticks now))
      (forEach keys (announceRouterIdChange now)) :=
  fun u => meets_forEach (utterance_chains _ now) (fun key _ => announceRouterIdChange_utters key) u

theorem receiveRoutes_cases (neighbour : NeighborKey) (now : UInt64) (tlvs : List Tlv)
    (routesChanged : Bool) (s : Engine P M) :
    ∃ replies middle delta chosen changes,
      (receiveRoutes order neighbour now tlvs routesChanged s).2 = replies ++ (delta ++ changes) ∧
      Processes neighbour now tlvs s replies middle ∧ Reselects now middle delta chosen ∧
      Steps (Utterance ticks now) chosen changes
        (receiveRoutes order neighbour now tlvs routesChanged s).1 :=
  ⟨_, _, _, _, _, rfl, receiveTlvs_processes order neighbour tlvs ⟨s, routesChanged, .empty⟩,
    when_reselects order _ _, announceRouterIdChanges_utters _ _⟩

variable [MetricProfile P M]

/-! ## Ticks and interfaces -/

/-- Everything a tick sends after its reselection. -/
def tickOutput (order : HashOrder) (now : UInt64) (refreshActions : List Action) :
    Effect (Engine P M) Action :=
  andThen (emit fun _ => refreshActions)
    (andThen (retryRequests order now)
      (andThen (sendRepeats now)
        (andThen (sendIhus order now) (periodicOutput now))))

/-- The routes of a tick: silent aging, then reselection and its snapshot. -/
def tickSettled (order : HashOrder) (now : UInt64) (s : Engine P M) : Engine P M × List Action :=
  tickRoutes order now s.tombstones.len (s.ageState order now).routesMayHaveChanged
    (s.ageState order now).engine

theorem ihuAction_utters (key : NeighborKey) (periodicDeadline : Option UInt64) :
    Meets (Steps (Utterance (P := P) (M := M) ticks now))
      (ihuAction key now periodicDeadline) := by
  intro s
  unfold ihuAction
  split
  next state neighbour up known =>
    -- An IHU that echoes timestamps carries its own timestamped Hello.
    dsimp only
    generalize MetricProfile.timestampsEnabled state.policy.metric = timestamps
    generalize (neighbour.nextRttProbeMs.any fun deadline => decide (now ≥ deadline)) = sendProbe
    generalize (neighbour.originTimestamp.bind fun origin =>
      neighbour.receiveTimestamp.map fun received => (origin, received)) = echoed
    have greeted : ∀ rxcost nextIhuMs nextRttProbeMs timing, Utterance ticks now s _ _ :=
      Utterance.greeted up known
        (if sendProbe || (timestamps && echoed.isSome) then
          some (neighbour.unicastHelloSeqno + 1, timestampUs now) else none)
        (if timestamps then echoed else none)
        (by cases sendProbe <;> cases timestamps <;> simp)
    cases sendProbe <;> cases timestamps <;> cases echoed <;>
      exact .single (greeted _ _ _ _)
  next => exact .refl s

/-- The reply to a packet that calls for an IHU. -/
theorem dueIhu_utters (key : NeighborKey) (due : Bool) :
    Meets (Steps (Utterance (P := P) (M := M) ticks now))
      (when (fun _ => due) (ihuAction key now none)) :=
  meets_when (utterance_chains _ now) fun u _ => ihuAction_utters key none u

omit [NeighborMetric M] in
theorem periodicHello_utters :
    Meets (Steps (Utterance (P := P) (M := M) ticks now)) (periodicHello now interface) := by
  intro s
  unfold periodicHello
  cases up : s.interfaces.get? interface with
  | none => exact .refl s
  | some state =>
    simp only
    split
    · have said : ∀ stamp : Option UInt32, Steps (Utterance ticks now) s _ _ := fun stamp =>
        .step (.hello up stamp (SendTiming.byDeadline now state.nextHelloMs))
          (.single (.rescheduled interface
            (fun known =>
              { known with
                helloSeqno := state.helloSeqno + 1
                nextHelloMs := nextPeriodicDeadline known.nextHelloMs now
                  known.policy.helloIntervalCs }) fun _ => ⟨rfl, rfl⟩))
      cases MetricProfile.timestampsEnabled state.policy.metric with
      | true => exact said (some (timestampUs now))
      | false => exact said none
    · exact .refl s

omit [NeighborMetric M] [MetricProfile P M] in
theorem periodicUpdate_utters :
    Meets (Steps (Utterance (P := P) (M := M) ticks now)) (periodicUpdate now interface) := by
  intro s
  unfold periodicUpdate
  cases s.interfaces.get? interface with
  | none => exact .refl s
  | some state =>
    simp only
    split
    · have scheduled : Steps (Utterance ticks now) s [] _ := .single (.rescheduled interface
        (fun state =>
          { state with
            nextUpdateMs := nextPeriodicDeadline state.nextUpdateMs now
              state.policy.updateIntervalCs }) fun _ => ⟨rfl, rfl⟩)
      exact (utterance_chains _ now).after_silent scheduled (sendUpdates_utters _ _ _ _)
    · exact .refl s

omit [NeighborMetric M] [MetricProfile P M] in
theorem sendRepeat_utters (entry : RouteKey × (UInt64 × Nat)) :
    Meets (Steps (Utterance (P := P) (M := M) ticks now)) (sendRepeat now entry) := by
  refine meets_andThen (utterance_chains _ now) (fun s => .single (.deferred _))
    (meets_andThen (utterance_chains _ now) (sendUpdates_utters _ _ _) fun s => ?_)
  split_ifs
  · exact .single (.deferred _)
  · exact .refl s

omit [MetricProfile P M] in
theorem refreshActions_utters (s u : Engine P M) :
    Steps (Utterance ticks now) u (s.ageState order now).refreshActions u := by
  have each : ∀ (entries : List ((RouteKey × NeighborKey) × Candidate)) (v : Engine P M),
      Steps (Utterance ticks now) u
        (entries.map fun entry => Action.send entry.1.2.interface entry.1.2.address
          ⟨[.routeRequest (some entry.1.1) []]⟩
          (SendTiming.triggered now (v.interfaceHelloInterval entry.1.2.interface))) u := by
    intro entries v
    induction entries with
    | nil => exact .refl u
    | cons entry rest ih => exact .step (.refreshed entry.1.1 entry.1.2 _) ih
  exact each _ _

/-- The periodic output of a tick, behind its retries. -/
theorem tickPeriodic_utters :
    Meets (Steps (Utterance (P := P) (M := M) ticks now))
      (andThen (sendRepeats now)
        (andThen (sendIhus order now) (periodicOutput now))) := by
  have chains := utterance_chains (P := P) (M := M) ticks now
  have repeats : Meets (Steps (Utterance (P := P) (M := M) ticks now))
      (sendRepeats now) :=
    fun u => meets_forEach chains (fun entry _ => sendRepeat_utters entry) u
  have greets : Meets (Steps (Utterance (P := P) (M := M) ticks now))
      (sendIhus order now) :=
    fun u => meets_forEach chains (fun due _ => ihuAction_utters due.1 due.2) u
  have periodic : Meets (Steps (Utterance (P := P) (M := M) ticks now))
      (periodicOutput now) :=
    fun u => meets_forEach chains (fun interface _ => meets_andThen chains
      (periodicHello_utters interface) (periodicUpdate_utters interface)) u
  exact meets_andThen chains repeats (meets_andThen chains greets periodic)

theorem tickOutput_utters (s : Engine P M) :
    Meets (Steps (Utterance (P := P) (M := M) true now))
      (tickOutput order now (s.ageState order now).refreshActions) := by
  have chains := utterance_chains (P := P) (M := M) true now
  have retried : Meets (Steps (Utterance (P := P) (M := M) true now))
      (retryRequests order now) := fun u => .single (.retries order rfl)
  exact meets_andThen chains (refreshActions_utters order s)
    (meets_andThen chains retried (tickPeriodic_utters order))

omit [MetricProfile P M] in
/-- A tick settles its routes by reselection and, at most, a report of expired holds. -/
theorem tickSettled_parts (now : UInt64) (s : Engine P M) :
    ∃ delta chosen report, Reselects now (s.ageState order now).engine delta chosen ∧
      (∀ ticks, Steps (Conclusion ticks now) chosen report (s.tickSettled order now).1) ∧
      (s.tickSettled order now).2 = delta ++ report := by
  have reselects : Reselects now (s.ageState order now).engine _ _ := when_reselects order
    (fun engine => (s.ageState order now).routesMayHaveChanged ||
      !engine.pendingSwitches.entries.isEmpty) (s.ageState order now).engine
  simp only [tickSettled, tickRoutes]
  split
  · exact ⟨_, _, _, reselects, fun ticks => .single (.settled (.refl _)), rfl⟩
  · exact ⟨_, _, [], reselects, fun ticks => .refl _, (List.append_nil _).symm⟩

theorem tick_phase (s : Engine P M) :
    Phase (Prelude now) true now s (tick order now s).2 (tick order now s).1 := by
  obtain ⟨delta, chosen, report, reselects, reports, settled⟩ := tickSettled_parts order now s
  have phase : Phase (Prelude now) true now (s.ageState order now).engine (delta ++ report) _ :=
    reselects.phase.then_coda (reports true)
  rw [← settled] at phase
  exact (phase.then_coda (utterances_coda (tickOutput_utters order s _))).after_prelude
    (ageState_prelude order s)

theorem interfaceUp_handled (policy : InterfacePolicy P) (s : Engine P M) :
    Handled true now s (interfaceUp order interface localAddresses policy now s).2
      (interfaceUp order interface localAddresses policy now s).1 := by
  have asked : Meets (Steps (Utterance (P := P) (M := M) true now))
      (emit fun engine => ((engine.interfaces.get? interface).map fun state =>
        wildcardRequest interface state now).toList) := by
    intro u
    simp only [emit_apply]
    cases up : u.interfaces.get? interface with
    | none => exact .refl u
    | some state => exact .single (.asked up)
  exact ⟨s.attachInterface interface localAddresses policy now,
    .attached interface localAddresses policy, (tick_phase order _).then_coda
      (utterances_coda (asked _))⟩

/-- A changed interface policy: reselection without the neighbours of a former
transport, metric reset with a full Update, and a tick are three phases. -/
theorem interfacePolicyChanged_handled (policy : InterfacePolicy P) (resetMetric : Bool)
    (s : Engine P M) :
    ∃ start, Reconfiguration now s start ∧
      Steps (Phase (Prelude now) true now) start
        (interfacePolicyChanged order interface policy resetMetric now s).2
        (interfacePolicyChanged order interface policy resetMetric now s).1 := by
  have chains := steps_chains (Phase (Prelude (P := P) (M := M) now) true now)
  have reset : ∀ u : Engine P M, Phase (Prelude now) true now u (resetMetrics order interface policy now u).2
      (resetMetrics order interface policy now u).1 := by
    intro u
    exact (when_reselects order _ _).phase.after_prelude
      (.step (Prelude.sensed (.reset interface policy))
        (.single (Prelude.sensed (.recomputed none))))
  have rest : Meets (Steps (Phase (Prelude now) true now))
      (andThen
        (when (fun _ => resetMetric)
          (resetMetrics (P := P) (M := M) order interface policy now))
        (sendUpdates now none (some interface) (some (SendTiming.urgent now)))) :=
    meets_andThen chains (meets_when chains fun u _ => .single (reset u))
      fun u => .single (phase_of_utterances (sendUpdates_utters _ _ _ u))
  unfold interfacePolicyChanged
  cases up : s.interfaces.get? interface with
  | none => exact ⟨s, .unchanged, .refl s⟩
  | some state =>
    have ticks : Meets (Steps (Phase (Prelude (P := P) (M := M) now) true now))
        (tick order now) := fun u => .single (tick_phase order u)
    cases changed : state.policy.controlTransport != policy.controlTransport with
    | false =>
      refine ⟨s.installPolicy interface policy now, .installed up ?_, ?_⟩
      · simpa using changed
      · simp only [changed]
        exact chains.trans (rest (s.installPolicy interface policy now)) (ticks _)
    | true =>
      refine ⟨(s.installPolicy interface policy now).detachNeighbours interface,
        .rehoused interface policy, ?_⟩
      have rehoused := chains.trans (chains.trans
        (Steps.single (reselect_phase order
          ((s.installPolicy interface policy now).detachNeighbours interface)))
        (rest _)) (ticks _)
      simp only [changed]
      exact rehoused

/-! ## Received packets -/

/-- A packet: observations, an IHU, the route TLVs, reselection, announcements. -/
inductive PacketPhase (neighbour : NeighborKey) (now : UInt64) (tlvs : List Tlv)
    (s : Engine P M) : List Action → Engine P M → Prop
  | dropped (rejections : Rejections) :
      PacketPhase neighbour now tlvs s [] { s with rejections := rejections }
  | processed {heard greeted middle chosen t : Engine P M}
      {greeting replies delta changes : List Action}
      (observes : Steps (Observation neighbour now tlvs) s [] heard)
      (greets : Steps (Utterance false now) heard greeting greeted)
      (wordless : sentUpdates greeting = [])
      (processes : Processes neighbour now tlvs greeted replies middle)
      (reselects : Reselects now middle delta chosen)
      (announces : Steps (Utterance false now) chosen changes t) :
      PacketPhase neighbour now tlvs s (greeting ++ replies ++ delta ++ changes) t

section Observe
variable {key : NeighborKey} {tlvs : List Tlv}

theorem hellos_observations {state : InterfaceState P} (receiveTimestamp : UInt32)
    (up : s.interfaces.get? key.interface = some state)
    (room : s.neighbours.containsKey key = true ∨
      s.neighbours.len < s.config.limits.maxNeighbors ∨ ∀ unicast seqno intervalCs subTlvs,
        Tlv.hello unicast seqno intervalCs subTlvs ∉ tlvs) :
    Steps (Observation key now tlvs) s [] (s.observeHellos state.policy.metric key
      state.policy.helloIntervalCs receiveTimestamp now tlvs).1 := by
  -- Once the first Hello is recorded, the neighbour is known and needs no room.
  refine (List.foldlRecOn tlvs _ (motive := fun (reached : Engine P M × Bool) =>
    Steps (Observation key now tlvs) s [] reached.1 ∧
      reached.1.interfaces = s.interfaces ∧
      (reached.1.neighbours.containsKey key = true ∨
        reached.1.neighbours.len < reached.1.config.limits.maxNeighbors ∨
          ∀ unicast seqno intervalCs subTlvs, Tlv.hello unicast seqno intervalCs subTlvs ∉ tlvs))
    ⟨.refl s, rfl, room⟩ fun reached held tlv member => ?_).1
  obtain ⟨steps, interfaces, spare⟩ := held
  cases tlv with
  | hello unicast seqno intervalCs subTlvs =>
    have free : reached.1.neighbours.containsKey key = true ∨
        reached.1.neighbours.len < reached.1.config.limits.maxNeighbors :=
      spare.imp_right fun few => few.resolve_right fun without => without _ _ _ _ member
    have greeted : Observation key now tlvs reached.1 [] _ :=
      .greeted (interfaces ▸ up) free member receiveTimestamp
    exact ⟨(steps_chains _).trans steps (.single greeted), interfaces,
      Or.inl (by simp [AssocMap.containsKey])⟩
  | _ => exact ⟨steps, interfaces, spare⟩

theorem rtt_observations (profile : P) (sample : Option UInt32) (s : Engine P M) :
    Steps (Observation key now tlvs) s [] (s.observeRtt profile key sample now) := by
  unfold observeRtt
  cases sample with
  | none => exact .refl s
  | some sample =>
    simp only
    split
    · exact .single (.sampled sample)
    · exact .refl s

theorem ihus_observations (s : Engine P M) :
    Steps (Observation key now tlvs) s [] (s.observeIhus key localAddresses now tlvs) := by
  refine List.foldlRecOn tlvs _
    (motive := fun (reached : Engine P M) => Steps (Observation key now tlvs) s [] reached)
    (.refl s) fun reached steps tlv member => ?_
  cases tlv with
  | ihu address rxcost intervalCs subTlvs =>
    simp only
    split
    · exact (steps_chains _).trans steps (.single (.confirmed member))
    · exact steps
  | _ => exact steps

end Observe

theorem observe_observations {state : InterfaceState P} {key : NeighborKey} {packet : Packet}
    (receiveTimestamp : UInt32) (up : s.interfaces.get? key.interface = some state)
    (room : s.neighbours.containsKey key = true ∨
      s.neighbours.len < s.config.limits.maxNeighbors ∨ packet.hasHello = false) :
    Steps (Observation key now packet.tlvs) s []
      (s.observe state key packet now receiveTimestamp).1 := by
  have chains := steps_chains (Observation (P := P) (M := M) key now packet.tlvs)
  have spare := room.imp_right (Or.imp_right (c := ∀ unicast seqno intervalCs subTlvs,
      Tlv.hello unicast seqno intervalCs subTlvs ∉ packet.tlvs) fun without => by
    intro unicast seqno intervalCs subTlvs listed
    simpa using (List.any_eq_false.mp without) _ listed)
  have heard := chains.trans (chains.trans (hellos_observations receiveTimestamp up spare)
    (rtt_observations state.policy.metric
      (packet.rttSample state.localAddresses receiveTimestamp) _))
    (ihus_observations state.localAddresses _)
  simp only [observe]
  split
  · exact chains.trans heard (.single .recomputed)
  · exact heard

theorem sentUpdates_ihuAction (key : NeighborKey) (periodicDeadline : Option UInt64)
    (s : Engine P M) : sentUpdates (ihuAction key now periodicDeadline s).2 = [] := by
  unfold ihuAction
  split
  next =>
    apply sentUpdates_eq_nil
    intro action member
    rw [List.mem_singleton.mp member]
    simp only [Action.sent, sentOn, List.map_eq_nil_iff, updatesOf_append,
      List.append_eq_nil_iff]
    refine ⟨?_, rfl⟩
    split_ifs <;> rfl
  next => rfl

theorem receive_phase (source : IpAddr) (packet : Packet) (receiveTimestamp : UInt32)
    (s : Engine P M) :
    PacketPhase ⟨interface, source⟩ now packet.tlvs s
      (receive order interface source packet now receiveTimestamp s).2
      (receive order interface source packet now receiveTimestamp s).1 := by
  rcases receive_cases order interface source packet now receiveTimestamp s with
    ⟨rejections, dropped⟩ | ⟨state, up, _, room, processed⟩
  · rw [dropped]
    exact .dropped rejections
  · rw [processed]
    have wordless : ∀ due (u : Engine P M), sentUpdates
        (when (fun _ => due) (ihuAction ⟨interface, source⟩ now none) u).2 = [] := by
      intro due u
      cases due with
      | true => exact sentUpdates_ihuAction _ none u
      | false => rfl
    obtain ⟨replies, middle, delta, chosen, changes, actions, processes, reselects, announces⟩ :=
      receiveRoutes_cases order ⟨interface, source⟩ now packet.tlvs
        (s.observe state ⟨interface, source⟩ packet now receiveTimestamp).2.1
        (when
          (fun _ => (s.observe state ⟨interface, source⟩ packet now receiveTimestamp).2.2)
          (ihuAction ⟨interface, source⟩ now none)
          (s.observe state ⟨interface, source⟩ packet now receiveTimestamp).1).1
    have phase := PacketPhase.processed
      (observe_observations receiveTimestamp up room)
      (dueIhu_utters _ _ _) (wordless _ _) processes reselects announces
    rw [andThen_apply, actions, ← List.append_assoc, ← List.append_assoc]
    exact phase

end Metric

end Rules

end Engine

/-! ## Every event -/

/-- The neighbour and the TLVs of a packet event. -/
def Event.received {P : Type} : Event P → Option (NeighborKey × List Tlv)
  | .packetReceived interface source packet _ => some (⟨interface, source⟩, packet.tlvs)
  | .packetReceivedWithTimestamp interface source packet _ _ =>
    some (⟨interface, source⟩, packet.tlvs)
  | _ => none

/-- The events that end in a tick. -/
def Event.ticks {P : Type} : Event P → Bool
  | .interfaceUp _ _ _ => true
  | .interfaceUpWithPolicy _ _ _ _ => true
  | .interfacePolicyChanged _ _ _ _ => true
  | .tick _ => true
  | _ => false

theorem Event.ticks_of_received {P : Type} {event : Event P} {heard : NeighborKey × List Tlv}
    (received : event.received = some heard) : event.ticks = false := by
  cases event <;> first | rfl | cases received

def Event.changesPolicy {P : Type} : Event P → Bool
  | .interfacePolicyChanged _ _ _ _ => true
  | _ => false

def Event.editsOrigins {P : Type} : Event P → Bool
  | .originate _ _ _ => true
  | .withdraw _ _ => true
  | .replaceOrigins _ _ => true
  | _ => false

namespace Engine

variable {P M : Type} [NeighborMetric M] [MetricProfile P M]
variable {s t : Engine P M} {actions : List Action} {now : UInt64} {event : Event P}

/-- A packet, an edit of the origins, another single phase, or the phases of a
changed interface policy. -/
inductive Dispatched (event : Event P) (s : Engine P M) (actions : List Action) (t : Engine P M) :
    Prop
  | packet (neighbour : NeighborKey) (tlvs : List Tlv)
      (received : event.received = some (neighbour, tlvs))
      (phase : PacketPhase neighbour event.now tlvs s actions t)
  | edited (edits : event.editsOrigins = true)
      (phase : Phase (Edit s event) event.ticks event.now s actions t)
  | phase (start : Engine P M) (plain : event.received = none ∧ event.editsOrigins = false)
      (change : Reconfiguration event.now s start)
      (phase : Phase (Prelude event.now) event.ticks event.now start actions t)
  | phases (start : Engine P M) (policy : event.changesPolicy = true)
      (change : Reconfiguration event.now s start)
      (phases : Steps (Phase (Prelude event.now) event.ticks event.now) start actions t)

/-- A relation that every move of an event's handling satisfies, edits of the
origins aside. -/
structure Moves (event : Event P) (T : Engine P M → List Action → Engine P M → Prop) : Prop where
  prelude : ∀ {s t actions}, Prelude event.now s actions t → T s actions t
  reselects : ∀ {s t actions}, Reselects event.now s actions t → T s actions t
  output : ∀ {s t actions}, Output event.ticks event.now s actions t → T s actions t
  observation : ∀ {s t actions neighbour tlvs}, event.received = some (neighbour, tlvs) →
    Observation neighbour event.now tlvs s actions t → T s actions t
  tlv : ∀ {neighbour tlvs tlv}, event.received = some (neighbour, tlvs) → tlv ∈ tlvs →
    ∀ order (state : ReceiveState P M),
      T state.engine (receiveTlv order neighbour event.now tlv state).2
        (receiveTlv order neighbour event.now tlv state).1.engine

section Fold
variable {T : Engine P M → List Action → Engine P M → Prop} (chains : Chains T)
include chains

omit [NeighborMetric M] [MetricProfile P M] in
theorem Phase.fold {prepare : Engine P M → List Action → Engine P M → Prop} {ticks : Bool}
    (prepared : ∀ {s t actions}, prepare s actions t → T s actions t)
    (reselected : ∀ {s t actions}, Reselects now s actions t → T s actions t)
    (concluded : ∀ {s t actions}, Output ticks now s actions t → T s actions t)
    (phase : Phase prepare ticks now s actions t) : T s actions t := by
  obtain ⟨prelude, reselects, coda⟩ := phase
  exact chains.trans (chains.trans (prelude.fold chains prepared) (reselected reselects))
    ((conclusions_outputs coda).fold chains concluded)

omit [MetricProfile P M] in
theorem Processes.fold {neighbour : NeighborKey} {tlvs : List Tlv}
    (each : ∀ {tlv}, tlv ∈ tlvs → ∀ order (state : ReceiveState P M),
      T state.engine (receiveTlv order neighbour now tlv state).2
        (receiveTlv order neighbour now tlv state).1.engine)
    (processes : Processes neighbour now tlvs s actions t) :
    T s actions t := by
  induction processes with
  | done s => exact chains.refl s
  | next order state _ ih =>
    exact chains.trans (each List.mem_cons_self order state)
      (ih fun member => each (List.mem_cons_of_mem _ member))

theorem PacketPhase.fold {neighbour : NeighborKey} {tlvs : List Tlv}
    (observed : ∀ {s t actions}, Observation neighbour now tlvs s actions t → T s actions t)
    (said : ∀ {s t actions}, Utterance false now s actions t → T s actions t)
    (each : ∀ {tlv}, tlv ∈ tlvs → ∀ order (state : ReceiveState P M),
      T state.engine (receiveTlv order neighbour now tlv state).2
        (receiveTlv order neighbour now tlv state).1.engine)
    (reselected : ∀ {s t actions}, Reselects now s actions t → T s actions t)
    (phase : PacketPhase neighbour now tlvs s actions t) : T s actions t := by
  cases phase with
  | dropped rejections => exact observed (.refused rejections)
  | processed observes greets _ processes reselects announces =>
    have heard := observes.fold chains observed
    have greeted := chains.trans heard (greets.fold chains said)
    exact chains.trans (chains.trans (chains.trans greeted (processes.fold chains each))
      (reselected reselects)) (announces.fold chains said)

theorem PacketPhase.fold_moves (moves : Moves event T) {neighbour : NeighborKey} {tlvs : List Tlv}
    (received : event.received = some (neighbour, tlvs))
    (phase : PacketPhase neighbour event.now tlvs s actions t) : T s actions t := by
  have calm := Event.ticks_of_received received
  have said : ∀ {u v outputs}, Utterance false event.now u outputs v → T u outputs v :=
    fun utterance => moves.output (.said (calm ▸ utterance))
  exact phase.fold chains (moves.observation received) said
    (fun member => moves.tlv received member) moves.reselects

/-- What every move satisfies, the handling satisfies from its reconfigured start. -/
theorem Dispatched.fold (moves : Moves event T)
    (edits : event.editsOrigins = true → ∀ {u v outputs}, Edit s event u outputs v → T u outputs v)
    (dispatched : Dispatched event s actions t) :
    ∃ start, Reconfiguration event.now s start ∧ T start actions t := by
  cases dispatched with
  | packet neighbour tlvs received phase =>
    exact ⟨s, .unchanged, phase.fold_moves chains moves received⟩
  | edited editing phase =>
    exact ⟨s, .unchanged,
      phase.fold chains (edits editing) moves.reselects moves.output⟩
  | phase start _ change phase =>
    exact ⟨start, change, phase.fold chains moves.prelude moves.reselects moves.output⟩
  | phases start _ change phases =>
    exact ⟨start, change, phases.fold chains fun phase =>
      phase.fold chains moves.prelude moves.reselects moves.output⟩

end Fold

theorem Handled.dispatched (plain : event.received = none ∧ event.editsOrigins = false)
    (handled : Handled event.ticks event.now s actions t) : Dispatched event s actions t := by
  obtain ⟨start, change, phase⟩ := handled
  exact .phase start plain change phase

theorem handleValidated_dispatched (event : Event P) (s : Engine P M) :
    Dispatched event s (handleValidated order event s).2 (handleValidated order event s).1 := by
  cases event with
  | interfaceUp interface localAddresses now =>
    exact (interfaceUp_handled order interface localAddresses _ s).dispatched ⟨rfl, rfl⟩
  | interfaceUpWithPolicy interface localAddresses policy now =>
    exact (interfaceUp_handled order interface localAddresses policy s).dispatched ⟨rfl, rfl⟩
  | interfacePolicyChanged interface policy resetMetric now =>
    obtain ⟨start, change, phases⟩ :=
      interfacePolicyChanged_handled order interface policy resetMetric s
    exact .phases start rfl change phases
  | interfaceAddressesChanged interface localAddresses now =>
    exact (interfaceAddressesChanged_handled interface localAddresses s).dispatched ⟨rfl, rfl⟩
  | interfaceDown interface now => exact (interfaceDown_handled order interface s).dispatched ⟨rfl, rfl⟩
  | packetReceived interface source packet now =>
    exact .packet _ _ rfl (receive_phase order interface source packet _ s)
  | packetReceivedWithTimestamp interface source packet now timestamp =>
    exact .packet _ _ rfl (receive_phase order interface source packet timestamp s)
  | originate key metric now => exact .edited rfl (originate_phase order key metric s)
  | withdraw key now => exact .edited rfl (removeOrigin_phase order key _ s)
  | replaceOrigins origins now => exact .edited rfl (replaceOrigins_phase order origins s)
  | replaceRoutePolicy policy now => exact (replaceRoutePolicy_handled order policy s).dispatched ⟨rfl, rfl⟩
  | tick now => exact (tick_phase order s).handled.dispatched ⟨rfl, rfl⟩

/-! ## Selected routes stay filed under their keys -/

section Keyed
omit [NeighborMetric M] [MetricProfile P M]

theorem SelectedKeyed.of_selected (same : t.selected = s.selected) (keyed : SelectedKeyed s) :
    SelectedKeyed t :=
  fun key route found => keyed key route (same ▸ found)

theorem Reselects.keyed (reselects : Reselects now s actions t) (keyed : SelectedKeyed s) :
    SelectedKeyed t := by
  cases reselects with
  | skipped => exact keyed
  | taken order => exact reselect_keyed order now s

variable [NeighborMetric M] [MetricProfile P M]

theorem moves_keyed (event : Event P) :
    Moves event fun (s : Engine P M) _ t => SelectedKeyed s → SelectedKeyed t where
  prelude := fun move => .of_selected move.selected
  reselects := Reselects.keyed
  output := fun move => .of_selected move.coda.sameRoutes.selected
  observation := fun _ move => .of_selected move.senses.2.selected
  tlv := fun _ _ order state => .of_selected (receiveTlv_receives order _ _ state).selected

theorem Dispatched.keyed (dispatched : Dispatched event s actions t) (keyed : SelectedKeyed s) :
    SelectedKeyed t := by
  obtain ⟨start, change, kept⟩ := dispatched.fold (keeps_chains SelectedKeyed)
    (moves_keyed event) fun _ _ _ _ edit => .of_selected edit.selected
  exact kept (keyed.of_selected change.reconfigures.selected)

theorem RunOf.keyed {allowed : Engine P M → Event P → Bool}
    {history : List (Event P × List Action)} {engine : Engine P M}
    (run : RunOf allowed history engine) : SelectedKeyed engine := by
  refine run.invariant (fun _ engine => SelectedKeyed engine) ?_ ?_
  · intro s starts
    obtain ⟨config, _, rfl⟩ := starts.eq_initial
    intro key route found
    cases found
  · rintro history s event actions t keyed ⟨_, order, handled⟩
    obtain ⟨_, _, rfl⟩ := tryHandle_ok handled
    exact (handleValidated_dispatched order event s).keyed keyed

end Keyed

end Engine

end BabelRs
