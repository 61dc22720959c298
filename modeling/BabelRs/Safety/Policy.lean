import BabelRs.Safety.SplitHorizon

/-!
# Route policy

Every reachable candidate passes the admission checks under the policy in force,
and every finite Update is one the policy announces on its interface.  A finite
Update to the group of a split-horizon link is for an own origin or for a route
learned elsewhere, provided that no packet claims to come from a group.
-/

set_option autoImplicit false

namespace BabelRs

open Lib Lib.Effect

def Candidate.context (neighbour : NeighborKey) (candidate : Candidate) : ImportContext where
  key := candidate.key
  interface := neighbour.interface
  neighbor := neighbour.address
  nextHop := candidate.nextHop
  routerId := candidate.routerId
  seqno := candidate.seqno
  advertisedMetric := candidate.advertisedMetric

/-- The candidate passes the admission checks of the configuration. -/
structure Candidate.Lawful {P : Type} (config : EngineConfig P) (neighbour : NeighborKey)
    (candidate : Candidate) : Prop where
  accepted : config.routePolicy.accept (candidate.context neighbour) = true
  allowed : forbiddenDestination candidate.key.destination = false
  foreign : candidate.routerId ≠ config.routerId
  reachable : candidate.key.destination.isIpv4 = true → candidate.nextHop.isIpv6 = true →
    config.ipv4ViaIpv6 = true

variable {neighbour : NeighborKey}

/-- A candidate that faded without becoming unreachable is as lawful as before. -/
theorem Candidate.Lawful.of_faded {P : Type} {config : EngineConfig P} {candidate old : Candidate}
    (lawful : old.Lawful config neighbour) (faded : candidate.Faded old)
    (same : candidate.advertisedMetric = old.advertisedMetric) :
    candidate.Lawful config neighbour := by
  have context : candidate.context neighbour = old.context neighbour := by
    simp only [context, faded.key, faded.nextHop, faded.routerId, faded.seqno, same]
  refine ⟨?_, ?_, ?_, ?_⟩
  · rw [context]
    exact lawful.accepted
  · rw [faded.key]
    exact lawful.allowed
  · rw [faded.routerId]
    exact lawful.foreign
  · rw [faded.key, faded.nextHop]
    exact lawful.reachable

namespace Engine

variable {P M : Type} {now : UInt64}
variable {s t : Engine P M} {actions : List Action} {event : Event P}

/-! ## Import -/

def Policed (s : Engine P M) : Prop :=
  ∀ entry candidate, s.candidates.get? entry = some candidate →
    candidate.advertisedMetric ≠ INFINITY → candidate.Lawful s.config entry.2

theorem Policed.fades (policed : Policed s) (config : t.config = s.config) (fades : Fades s t) :
    Policed t := by
  intro entry candidate found finite
  obtain ⟨old, stored, faded⟩ := fades entry candidate found
  have same := faded.advertised.resolve_right finite
  rw [config]
  exact (policed entry old stored (same ▸ finite)).of_faded faded same

theorem Policed.of_candidates (policed : Policed s) (config : t.config = s.config)
    (same : t.candidates = s.candidates) : Policed t :=
  policed.fades config (Fades.of_kept fun _ _ found => same ▸ found)

theorem Policed.applyRoutePolicy (policed : Policed s) (policy : RoutePolicy) :
    Policed (s.applyRoutePolicy policy) := by
  intro entry candidate found finite
  simp only [Engine.applyRoutePolicy, AssocMap.get?_retain, Option.filter_eq_some_iff,
    Bool.and_eq_true] at found
  have before := policed entry candidate found.1 finite
  exact ⟨found.2.2, before.allowed, before.foreign, before.reachable⟩

theorem Reconfiguration.policed (change : Reconfiguration now s t) (policed : Policed s) :
    Policed t := by
  have fades := change.reconfigures.fades
  cases change with
  | unchanged => exact policed
  | attached interface localAddresses policy =>
    refine policed.fades ?_ fades
    unfold attachInterface
    split <;> rfl
  | installed _ _ => exact policed.fades rfl fades
  | rehoused interface policy => exact policed.fades rfl fades
  | readdressed interface localAddresses => exact policed.fades rfl fades
  | removed interface => exact policed.fades rfl fades
  | replaced policy => exact policed.applyRoutePolicy policy

theorem storedCandidate_lawful {finite : FiniteUpdate}
    (admitted : s.admissible neighbour finite = true) (metric : UInt16) :
    (storedCandidate neighbour finite metric now).Lawful s.config neighbour := by
  simp only [admissible, Bool.and_eq_true, Bool.not_eq_true', bne_iff_ne,
    Bool.and_eq_false_iff, Bool.not_eq_false'] at admitted
  obtain ⟨⟨⟨allowed, foreign⟩, reachable⟩, accepted⟩ := admitted
  refine ⟨accepted, allowed, foreign, fun isV4 isV6 => ?_⟩
  rcases reachable with (notV4 | notV6) | enabled
  · exact absurd (isV4.symm.trans notV4) (by decide)
  · exact absurd (isV6.symm.trans notV6) (by decide)
  · exact enabled

section Metric
variable [NeighborMetric M] [MetricProfile P M]

omit [MetricProfile P M] in
theorem receiveTlv_policed (order : HashOrder) (neighbour : NeighborKey) (tlv : Tlv)
    (state : ReceiveState P M) (policed : Policed state.engine) :
    Policed (receiveTlv order neighbour now tlv state).1.engine := by
  obtain ⟨_, _, effect⟩ := receiveTlv_effect order neighbour now tlv state
  intro entry candidate found finite
  rw [effect.receives.config]
  rcases effect.candidates found with
    ⟨old, stored, faded⟩ | ⟨update, content, metric, _, _, admitted, rfl, rfl⟩
  · have same := faded.advertised.resolve_right finite
    exact (policed entry old stored (same ▸ finite)).of_faded faded same
  · exact storedCandidate_lawful admitted metric

theorem Prelude.config (prelude : Prelude now s actions t) : t.config = s.config := by
  cases prelude with
  | sensed silent => exact silent.senses.config
  | collected => rfl
  | invalidated => rfl

theorem moves_policed (event : Event P) :
    Moves event fun (s : Engine P M) _ t => Policed s → Policed t where
  prelude := fun move policed => policed.fades move.config move.fades
  reselects := fun move policed =>
    policed.of_candidates move.tables.config move.tables.candidates
  output := fun move policed =>
    policed.of_candidates move.coda.sameRoutes.config move.coda.sameRoutes.candidates
  observation := fun _ move policed => policed.fades move.senses.2.config move.senses.2.fades
  tlv := fun _ _ order state => receiveTlv_policed order _ _ state

omit [NeighborMetric M] [MetricProfile P M] in
theorem Edit.routes {before : Engine P M} (edit : Edit before event s actions t) :
    t.config = s.config ∧ t.links = s.links ∧ t.candidates = s.candidates ∧
      t.pendingSeqno = s.pendingSeqno := by
  cases edit with
  | scheduled _ => exact ⟨rfl, rfl, rfl, rfl⟩
  | lifted _ => exact ⟨rfl, rfl, rfl, rfl⟩
  | bumped => exact ⟨rfl, rfl, rfl, rfl⟩
  | reoriginated _ _ _ => exact ⟨rfl, rfl, rfl, rfl⟩

theorem Dispatched.policed (dispatched : Dispatched event s actions t) (policed : Policed s) :
    Policed t := by
  obtain ⟨start, change, kept⟩ := dispatched.fold (keeps_chains Policed)
    (moves_policed event) fun _ _ _ _ edit policed =>
      policed.of_candidates edit.routes.1 edit.routes.2.2.1
  exact kept (change.policed policed)

theorem RunOf.policed {allowed : Engine P M → Event P → Bool}
    {history : List (Event P × List Action)} (run : RunOf allowed history s) :
    Policed s := by
  refine run.invariant (fun _ s => Policed s) ?_ ?_
  · intro s starts
    obtain ⟨config, _, rfl⟩ := starts.eq_initial
    intro entry candidate found
    cases found
  · rintro history s event actions t policed ⟨_, order, handled⟩
    obtain ⟨_, _, rfl⟩ := tryHandle_ok handled
    exact (handleValidated_dispatched order event s).policed policed

/-! ## Export -/

section Export
omit [NeighborMetric M] [MetricProfile P M]

/-- The policy announces the Update on its interface. -/
def Announceable (config : EngineConfig P) (sent : SentUpdate) : Prop :=
  ∃ key routerId, sent.update.key = some key ∧ sent.update.routerId = some routerId ∧
    config.routePolicy.announce
      { key := key
        interface := sent.interface
        routerId := routerId
        locallyOriginated := routerId == config.routerId } = true

variable {sent : SentUpdate}

theorem announceable_of_advertisement {key : RouteKey} {routerId : RouterId} {seqno metric : UInt16}
    (same : sent.update = s.advertisement sent.interface key routerId seqno metric)
    (finite : sent.update.metric ≠ INFINITY) : Announceable s.config sent := by
  refine ⟨key, routerId, by rw [same, advertisement_key], by rw [same, advertisement_routerId], ?_⟩
  rw [same] at finite
  have exactMetric := advertisement_metric_of_finite finite
  rw [advertisement_metric] at finite
  split_ifs at finite with withheld
  · exact absurd rfl finite
  · have finiteMetric : (metric != INFINITY) = true := bne_iff_ne.mpr (exactMetric ▸ finite)
    rw [finiteMetric, Bool.true_and, Bool.not_eq_true, Bool.or_eq_false_iff] at withheld
    simpa [denied] using withheld.2

theorem Licensed.announceable {gone : RouteKey → Prop} (licensed : Licensed gone s sent)
    (finite : sent.update.metric ≠ INFINITY) :
    Announceable s.config sent := by
  cases licensed with
  | origin key entry _ same => exact announceable_of_advertisement same finite
  | selected route _ same => exact announceable_of_advertisement same finite
  | absent _ _ infinite _ _ => exact absurd infinite finite
  | lost _ _ infinite _ _ => exact absurd infinite finite

/-- Every finite Update passes the policy, which stays in force. -/
structure Permits (s : Engine P M) (actions : List Action) (t : Engine P M) : Prop where
  config : t.config = s.config
  announced : ∀ sent ∈ sentUpdates actions, sent.update.metric ≠ INFINITY →
    Announceable s.config sent

theorem permits_chains : Chains (Permits (P := P) (M := M)) where
  refl := fun s => ⟨rfl, by simp⟩
  trans := by
    intro s middle t first second left right
    refine ⟨right.config.trans left.config, fun sent member finite => ?_⟩
    rw [sentUpdates_append] at member
    rcases List.mem_append.mp member with early | late
    · exact left.announced sent early finite
    · rw [← left.config]
      exact right.announced sent late finite

theorem Permits.silent (config : t.config = s.config) (silent : sentUpdates actions = []) :
    Permits s actions t :=
  ⟨config, by simp [silent]⟩

theorem Announces.permits {gone : RouteKey → Prop} (announces : Announces gone now s actions t)
    (keyed : SelectedKeyed s) : Permits s actions t :=
  ⟨announces.quiet.config, fun sent member => (announces.licensed keyed sent member).announceable⟩

theorem Answers.permits {asked : NeighborKey → Prop} {update : FiniteUpdate} {metric : UInt16}
    (answers : Answers asked update metric now s actions t) : Permits s actions t :=
  ⟨answers.quiet.config, fun sent member =>
    announceable_of_advertisement (answers.replies sent member).2.2⟩

theorem Reselects.permits (reselects : Reselects now s actions t) : Permits s actions t := by
  refine ⟨reselects.tables.config, ?_⟩
  rw [← reselects.tables.config]
  cases reselects with
  | skipped => simp
  | taken order =>
    exact fun sent member => (reselect_licensed order now s sent member).announceable

theorem Coda.permits (coda : Coda now s actions t) (keyed : SelectedKeyed s) :
    Permits s actions t := by
  cases coda with
  | announced announces => exact announces.permits keyed
  | reported => exact .silent rfl rfl
  | held _ _ _ => exact .silent rfl rfl
  | lifted _ _ => exact .silent rfl rfl

theorem Edit.permits {before : Engine P M} (edit : Edit before event s actions t) :
    Permits s actions t := by
  cases edit with
  | scheduled _ => exact .silent rfl rfl
  | lifted _ => exact .silent rfl rfl
  | bumped => exact .silent rfl rfl
  | reoriginated _ _ _ => exact .silent rfl rfl

variable [NeighborMetric M] [MetricProfile P M]

theorem Prelude.permits (prelude : Prelude now s actions t) : Permits s actions t := by
  refine .silent prelude.config ?_
  cases prelude with
  | sensed _ => rfl
  | collected => rfl
  | invalidated => rfl

omit [MetricProfile P M] in
theorem TlvEffect.permits {tlv : Tlv} {changed : Bool}
    (effect : TlvEffect neighbour now tlv s actions t changed) (keyed : SelectedKeyed s) :
    Permits s actions t := by
  have config := effect.receives.config
  refine ⟨config, ?_⟩
  cases effect with
  | announced announces _ => exact (announces.permits keyed).announced
  | bumped key own announces _ =>
    have bumped := announces.permits (keyed.of_selected rfl)
    exact fun sent member => bumped.announced sent member
  | updated update isUpdate effect =>
    cases effect with
    | announced announces silent => simp [silent]
    | retractedAll _ _ => simp [retractAll]
    | retracted _ _ _ => simp [retractOne]
    | rejected _ _ => simp [rejectByPolicy]
    | limited _ => simp [rejectByLimit]
    | stored finite state resolved admitted known room current requests =>
      rcases requests with ⟨_, silent⟩ | ⟨_, answers⟩
      · simp [silent]
      · exact answers.permits.announced

theorem moves_permits (event : Event P) :
    Moves event (Effect.Guarded SelectedKeyed (Permits (P := P) (M := M))) where
  prelude := fun move keyed => ⟨keyed.of_selected move.selected, move.permits⟩
  reselects := fun move keyed => ⟨move.keyed keyed, move.permits⟩
  output := fun move keyed =>
    ⟨keyed.of_selected move.coda.sameRoutes.selected, move.coda.permits keyed⟩
  observation := fun _ move keyed => ⟨keyed.of_selected move.senses.2.selected,
    .silent move.senses.2.config (by rw [move.senses.1]; rfl)⟩
  tlv := fun {neighbour _ tlv} _ _ order state keyed => by
    obtain ⟨_, _, effect⟩ := receiveTlv_effect order neighbour event.now tlv state
    exact ⟨keyed.of_selected effect.receives.selected, effect.permits keyed⟩

/-- Every finite Update of an event passes the policy in force after it. -/
theorem Dispatched.announceable (dispatched : Dispatched event s actions t)
    (keyed : SelectedKeyed s) (member : sent ∈ sentUpdates actions)
    (finite : sent.update.metric ≠ INFINITY) :
    Announceable t.config sent := by
  obtain ⟨start, change, guarded⟩ := dispatched.fold
    (guarded_chains SelectedKeyed permits_chains) (moves_permits event)
    fun _ _ _ _ edit keyed => ⟨keyed.of_selected edit.selected, edit.permits⟩
  have permits := (guarded (keyed.of_selected change.reconfigures.selected)).2
  rw [permits.config]
  exact permits.announced sent member finite

end Export

/-- Import, export and split horizon along every run; the last for a host that admits no
packet from a group. -/
theorem route_policy_sound {history : List (Event P × List Action)} {s : Engine P M}
    (run : RunOf anyEvent history s) :
    (∀ entry candidate, s.candidates.get? entry = some candidate →
        candidate.advertisedMetric ≠ INFINITY → candidate.Lawful s.config entry.2) ∧
      ∀ event actions t, Step anyEvent s event actions t →
        (∀ sent ∈ sentUpdates actions, sent.update.metric ≠ INFINITY →
          Announceable t.config sent) ∧
        ((∀ past ∈ history, past.1.fromUnicast = true) → event.fromUnicast = true →
          ∀ earlier action later, actions = earlier ++ action :: later →
            ∀ sent ∈ action.sent, Split t.config.routerId t.links
              (earlier.foldl Action.reroute s.selectedRoutes) sent) := by
  refine ⟨run.policed, ?_⟩
  rintro event actions t ⟨_, order, handled⟩
  obtain ⟨_, rfl, rfl⟩ := tryHandle_ok handled
  have dispatched := handleValidated_dispatched order event s
  refine ⟨fun sent member finite => dispatched.announceable run.keyed member finite, ?_⟩
  intro admitted unicast earlier action later listed sent member
  have tracked := (dispatched.horizons unicast (run.askedByUnicast admitted)).2
  rw [listed] at tracked
  exact tracked.at sent member

end Metric

/-! ## Concrete runs -/

section Concrete
open Conformance
set_option synthInstance.maxSize 1024

def twoLinks : List (Event BuiltinProfile) :=
  [.interfaceUp (link 1) [address 1] 0, .interfaceUp (link 2) [address 1] 0,
    packet (link 1) (address 2) (greeting 96) 1]

/-- A route learned on the first link is announced on the second. -/
theorem learned_route_leaves_elsewhere :
    ∃ (history : List (Event BuiltinProfile × List Action)) (s t : Harness)
        (actions : List Action), RunOf anyEvent history s ∧
      Step anyEvent s
        (packet (link 1) (address 2) [routeUpdate destination (address 2) (nodeId 1) 100 10] 2)
        actions t ∧
      ((sentUpdates actions).any fun sent => sent.update.metric != INFINITY) = true ∧
      (∀ sent ∈ sentUpdates actions, sent.update.metric ≠ INFINITY → Announceable t.config sent) ∧
      ∀ earlier action later, actions = earlier ++ action :: later →
        ∀ sent ∈ action.sent, Split t.config.routerId t.links
          (earlier.foldl Action.reroute s.selectedRoutes) sent := by
  obtain ⟨history, s, run, admitted, finite⟩ := run_of_checked_play anyEvent
    (harness (nodeId 0)) twoLinks
    (fun history (s : Harness) =>
      (history.all fun past => past.1.fromUnicast) = true ∧
        ((sentUpdates (handleValidated HashOrder.stored (packet (link 1) (address 2)
          [routeUpdate destination (address 2) (nodeId 1) 100 10] 2) s).2).any fun sent =>
            sent.update.metric != INFINITY) = true)
    rfl (by decide +kernel)
  have step : Step anyEvent s (packet (link 1) (address 2)
      [routeUpdate destination (address 2) (nodeId 1) 100 10] 2) _ _ :=
    ⟨rfl, _, tryHandle_valid _ rfl HashOrder.stored s⟩
  obtain ⟨announced, split⟩ := (route_policy_sound run).2 _ _ _ step
  exact ⟨history, s, _, _, run, step, finite, announced,
    split (fun past member => List.all_eq_true.mp admitted past member) rfl⟩

/-- A request that claims to come from the group is answered to the group, on the
split-horizon link the route was learned from. -/
theorem group_request_crosses_the_horizon :
    ∃ (history : List (Event BuiltinProfile × List Action)) (before after : Harness)
        (actions : List Action), RunOf anyEvent history before ∧
      Step anyEvent before
        (packet (link 1) babelMulticastV6 [.routeRequest (some destination) []] 3) actions after ∧
      ((before.selected.get? destination).map fun route => (route.routerId, route.interface)) =
        some (nodeId 1, link 1) ∧
      (after.selected.get? destination).isSome = true ∧
      ((after.links.get? (link 1)).map fun linked =>
        (linked.2.splitHorizon, linked.2.controlTransport.multicast)) =
          some (true, babelMulticastV6) ∧
      ((sentUpdates actions).map fun sent => (sent.interface, sent.destination, sent.update.key,
        sent.update.routerId, decide (sent.update.metric = INFINITY))) =
          [(link 1, babelMulticastV6, some destination, some (nodeId 1), false)] := by
  exact step_of_checked_play anyEvent
    (harness (nodeId 0))
    (twoLinks ++
      [packet (link 1) (address 2) [routeUpdate destination (address 2) (nodeId 1) 100 10] 2])
    (packet (link 1) babelMulticastV6 [.routeRequest (some destination) []] 3) _ rfl (by decide +kernel)

end Concrete

end Engine

end BabelRs
