import BabelRs.Safety.Sent

/-!
# Every output function announces only what the tables license

An Update leaves the engine for one of four reasons: its key is originated, its
key is selected, its key is in neither table and is retracted, or its key was
just lost.  Each output function changes nothing but its own bookkeeping, sends
only licensed Updates, and records exactly the finite ones it sends.
-/

set_option autoImplicit false

namespace BabelRs

open Lib Lib.Effect

namespace Engine

variable {P M : Type}
variable {s t : Engine P M}

/-- Selected routes are filed under their own key. -/
def SelectedKeyed (engine : Engine P M) : Prop :=
  ∀ key route, engine.selected.get? key = some route → route.key = key

/-- Why an Update may be sent; `gone` are the keys whose loss is being announced. -/
inductive Licensed (gone : RouteKey → Prop) (engine : Engine P M) (sent : SentUpdate) : Prop
  | origin (key : RouteKey) (entry : Originated)
      (found : engine.originated.get? key = some entry)
      (same : sent.update = engine.advertisement sent.interface key engine.config.routerId
        entry.seqno entry.metric)
  | selected (route : SelectedRoute) (found : engine.selected.get? route.key = some route)
      (same : sent.update = engine.advertisement sent.interface route.key route.routerId
        route.seqno route.metric)
  | absent (key : RouteKey) (named : sent.update.key = some key)
      (infinite : sent.update.metric = INFINITY)
      (notOriginated : engine.originated.get? key = none)
      (notSelected : engine.selected.get? key = none)
  | lost (key : RouteKey) (named : sent.update.key = some key)
      (infinite : sent.update.metric = INFINITY) (lost : gone key)
      (notSelected : engine.selected.get? key = none)

/-- The keys of `gone` when nothing was lost. -/
def nothingLost : RouteKey → Prop := fun _ => False

variable {gone : RouteKey → Prop} {now : UInt64}

/-- A license reads only tables that output leaves alone. -/
theorem Licensed.of_frame {sent : SentUpdate} (frame : Frame s t)
    (licensed : Licensed gone t sent) : Licensed gone s sent := by
  cases licensed with
  | origin key entry found same =>
    rw [advertisement_congr frame.config frame.links, frame.config] at same
    exact .origin key entry (frame.originated ▸ found) same
  | selected route found same =>
    rw [advertisement_congr frame.config frame.links] at same
    exact .selected route (frame.selected ▸ found) same
  | absent key named infinite notOriginated notSelected =>
    exact .absent key named infinite (frame.originated ▸ notOriginated)
      (frame.selected ▸ notSelected)
  | lost key named infinite lost notSelected =>
    exact .lost key named infinite lost (frame.selected ▸ notSelected)

/-- Sending `sent`: nothing but bookkeeping changes, every finite Update is
recorded in order, every Update is licensed. -/
structure Announcing (gone : RouteKey → Prop) (now : UInt64) (s : Engine P M)
    (sent : List SentUpdate) (t : Engine P M) : Prop where
  quiet : Quiet s t
  recorded : t.feasible = sent.foldl (SourceTable.note now) s.feasible
  licensed : SelectedKeyed s → ∀ item ∈ sent, Licensed gone s item

theorem Announcing.refl (s : Engine P M) : Announcing gone now s [] s :=
  ⟨Quiet.refl s, rfl, fun _ => by simp⟩

theorem SelectedKeyed.of_frame (frame : Frame s t) (keyed : SelectedKeyed s) :
    SelectedKeyed t := by
  intro key route found
  exact keyed key route (frame.selected ▸ found)

theorem Announcing.trans {middle : Engine P M} {first second : List SentUpdate}
    (left : Announcing gone now s first middle) (right : Announcing gone now middle second t) :
    Announcing gone now s (first ++ second) t where
  quiet := left.quiet.trans right.quiet
  recorded := by rw [List.foldl_append, ← left.recorded, right.recorded]
  licensed := by
    intro keyed item member
    rcases List.mem_append.mp member with early | late
    · exact left.licensed keyed item early
    · exact (right.licensed (keyed.of_frame left.quiet.toFrame) item late).of_frame
        left.quiet.toFrame

/-- Changing bookkeeping without a word. -/
theorem Announcing.silent (quiet : Quiet s t) (same : t.feasible = s.feasible) :
    Announcing gone now s [] t :=
  ⟨quiet, same, fun _ => by simp⟩

/-- The same for a list of actions, all of them sends. -/
structure Announces (gone : RouteKey → Prop) (now : UInt64) (s : Engine P M)
    (actions : List Action) (t : Engine P M) : Prop
    extends Announcing gone now s (sentUpdates actions) t where
  sends : ∀ action ∈ actions, action.isSend = true

theorem announces_chains (gone : RouteKey → Prop) (now : UInt64) :
    Chains (Announces (P := P) (M := M) gone now) where
  refl := fun s => ⟨Announcing.refl s, by simp⟩
  trans := by
    intro s middle t first second left right
    refine ⟨?_, ?_⟩
    · rw [sentUpdates_append]
      exact left.toAnnouncing.trans right.toAnnouncing
    · intro action member
      rcases List.mem_append.mp member with early | late
      · exact left.sends action early
      · exact right.sends action late

/-- Packets without Updates announce nothing. -/
theorem Announces.wordless {actions : List Action} (quiet : Quiet s t)
    (same : t.feasible = s.feasible) (sends : ∀ action ∈ actions, action.isSend = true)
    (none : ∀ action ∈ actions, action.sent = []) : Announces gone now s actions t := by
  refine ⟨?_, sends⟩
  rw [sentUpdates_eq_nil none]
  exact Announcing.silent quiet same

/-! ## One advertisement -/

theorem maintain_advertisement (s : Engine P M) (interface : InterfaceName) (destination : IpAddr)
    (timing : SendTiming) (key : RouteKey) (routerId : RouterId) (seqno metric : UInt16) :
    let update := s.advertisement interface key routerId seqno metric
    (if update.metric != INFINITY then s.maintainSource key routerId ⟨seqno, metric⟩ now
      else s).feasible =
      SourceTable.note now s.feasible ⟨interface, destination, timing, update⟩ := by
  intro update
  by_cases finite : update.metric = INFINITY
  · rw [SourceTable.note_retraction now _ finite]
    simp [finite]
  · have exactMetric : update.metric = metric := advertisement_metric_of_finite finite
    have metricFinite : metric ≠ INFINITY := exactMetric ▸ finite
    simp only [SourceTable.note, update, advertisement_key, advertisement_routerId,
      advertisement_seqno]
    simp only [update] at exactMetric
    simp [exactMetric, metricFinite, maintainSource]

theorem quiet_maintainWhen (condition : Bool) (key : RouteKey) (routerId : RouterId)
    (distance : Distance) (s : Engine P M) :
    Quiet s (if condition then s.maintainSource key routerId distance now else s) := by
  cases condition with
  | false => exact Quiet.refl s
  | true => exact quiet_maintainSource key routerId distance now s

theorem announcing_advertisement (s : Engine P M) (interface : InterfaceName)
    (destination : IpAddr) (timing : SendTiming) (key : RouteKey) (routerId : RouterId)
    (seqno metric : UInt16)
    (licensed : SelectedKeyed s → Licensed gone s ⟨interface, destination, timing,
      s.advertisement interface key routerId seqno metric⟩) :
    Announcing gone now s
      [⟨interface, destination, timing, s.advertisement interface key routerId seqno metric⟩]
      (if (s.advertisement interface key routerId seqno metric).metric != INFINITY then
        s.maintainSource key routerId ⟨seqno, metric⟩ now else s) where
  quiet := quiet_maintainWhen _ key routerId _ s
  recorded := maintain_advertisement s interface destination timing key routerId seqno metric
  licensed := by
    intro keyed item member
    rw [List.mem_singleton.mp member]
    exact licensed keyed

/-- The state after a unicast reply, with the metric it was asked to send. -/
theorem updateActionToCandidate_eq (key : RouteKey) (routerId : RouterId) (seqno metric : UInt16)
    (destination : NeighborKey) (s : Engine P M) :
    updateActionToCandidate key routerId seqno metric destination now s =
      (if (s.advertisement destination.interface key routerId seqno metric).metric != INFINITY then
          s.maintainSource key routerId ⟨seqno, metric⟩ now else s,
        [.send destination.interface destination.address
          ⟨[.update (s.advertisement destination.interface key routerId seqno metric)]⟩
          (SendTiming.urgent now)]) := by
  by_cases finite : (s.advertisement destination.interface key routerId seqno metric).metric =
      INFINITY
  · simp [updateActionToCandidate, finite]
  · have exactMetric := advertisement_metric_of_finite finite
    simp only [updateActionToCandidate, exactMetric]

theorem updateActionToCandidate_announces (key : RouteKey) (routerId : RouterId)
    (seqno metric : UInt16) (destination : NeighborKey) (s : Engine P M)
    (licensed : SelectedKeyed s → Licensed gone s ⟨destination.interface, destination.address,
      SendTiming.urgent now, s.advertisement destination.interface key routerId seqno metric⟩) :
    Announces gone now s
      (updateActionToCandidate key routerId seqno metric destination now s).2
      (updateActionToCandidate key routerId seqno metric destination now s).1 := by
  rw [updateActionToCandidate_eq]
  refine ⟨?_, by simp [Action.isSend]⟩
  simpa [Action.sent] using
    announcing_advertisement s destination.interface destination.address (SendTiming.urgent now) key
      routerId seqno metric licensed

theorem replyToRouteRequest_announces (key : RouteKey) (destination : NeighborKey) :
    Meets (Announces (P := P) (M := M) gone now)
      (replyToRouteRequest key destination now) := by
  intro s
  unfold replyToRouteRequest
  cases origin : s.originated.get? key with
  | some entry =>
    exact updateActionToCandidate_announces key _ _ _ destination s
      fun _ => .origin key entry origin rfl
  | none =>
    cases found : s.selected.get? key with
    | some route =>
      refine updateActionToCandidate_announces key _ _ _ destination s fun keyed => ?_
      have same : route.key = key := keyed key route found
      subst same
      exact .selected route found rfl
    | none =>
      refine ⟨⟨Quiet.refl s, ?_, ?_⟩, by simp [retractionAction, Action.isSend]⟩
      · simp [retractionAction, Action.sent, SourceTable.note]
      · intro _ item member
        simp only [retractionAction, sentUpdates_cons, Action.sent, sentOn_update,
          sentUpdates_nil, List.append_nil, List.mem_singleton] at member
        subst member
        exact .absent key rfl rfl origin found

/-! ## Multicast Updates -/

section Tlvs
variable {interface : InterfaceName} {destination : IpAddr} {timing : SendTiming}

theorem announcingTlvs_chains (gone : RouteKey → Prop) (now : UInt64) (interface : InterfaceName)
    (destination : IpAddr) (timing : SendTiming) :
    Chains fun (s : Engine P M) tlvs t =>
      Announcing gone now s (sentOn interface destination timing tlvs) t where
  refl := fun s => Announcing.refl s
  trans := by
    intro s middle t first second left right
    rw [sentOn_append]
    exact left.trans right

theorem advertiseOrigin_announcing (entry : RouteKey × Originated) (s : Engine P M)
    (found : s.originated.get? entry.1 = some entry.2) :
    Announcing gone now s
      (sentOn interface destination timing (advertiseOrigin now interface entry s).2)
      (advertiseOrigin now interface entry s).1 :=
  announcing_advertisement s interface destination timing entry.1 s.config.routerId entry.2.seqno
    entry.2.metric fun _ => .origin entry.1 entry.2 found rfl

theorem advertiseSelected_announcing (splitHorizon : Bool) (route : SelectedRoute)
    (s : Engine P M) (found : ∃ key, s.selected.get? key = some route) :
    Announcing gone now s
      (sentOn interface destination timing (advertiseSelected now interface splitHorizon route s).2)
      (advertiseSelected now interface splitHorizon route s).1 := by
  obtain ⟨key, found⟩ := found
  simp only [advertiseSelected]
  split
  · exact Announcing.refl s
  · refine announcing_advertisement s interface destination timing route.key route.routerId
      route.seqno route.metric fun keyed => ?_
    have same : route.key = key := keyed key route found
    exact .selected route (same ▸ found) rfl

theorem advertiseTombstone_announcing (key : RouteKey) (s : Engine P M) :
    Announcing gone now s
      (sentOn interface destination timing (advertiseTombstone interface key s).2)
      (advertiseTombstone interface key s).1 := by
  unfold advertiseTombstone
  split_ifs with dead
  · have infinite := s.advertisement_infinity interface key s.config.routerId s.sequenceNumber
    refine ⟨Quiet.refl s, ?_, ?_⟩
    · simp [SourceTable.note_retraction, infinite]
    · intro _ item member
      simp only [sentOn_update, List.mem_singleton] at member
      subst member
      simp only [Bool.and_eq_true, Bool.not_eq_true', OrdMap.containsKey_eq_false] at dead
      exact .absent key rfl infinite dead.1 dead.2
  · exact Announcing.refl s

variable (origins : List (RouteKey × Originated)) (selected : List SelectedRoute)
  (tombstones : List RouteKey)

/-- The loops read lists taken from the tables of `start`; `s` differs from it in
bookkeeping only. -/
theorem updateTlvs_announcing (splitHorizon : Bool) (start s : Engine P M) (same : Quiet start s)
    (originated : ∀ entry ∈ origins, start.originated.get? entry.1 = some entry.2)
    (routes : ∀ route ∈ selected, ∃ key, start.selected.get? key = some route) :
    Announcing gone now s
      (sentOn interface destination timing
        (updateTlvs now interface splitHorizon origins selected tombstones s).2)
      (updateTlvs now interface splitHorizon origins selected tombstones s).1 := by
  have chains := announcingTlvs_chains (P := P) (M := M) gone now interface destination timing
  have kept : ∀ {u v : Engine P M} {tlvs : List OutboundTlv}, Quiet start u →
      Announcing gone now u (sentOn interface destination timing tlvs) v → Quiet start v :=
    fun before announcing => before.trans announcing.quiet
  have first := forEach_from chains (Quiet start) origins (advertiseOrigin now interface) kept
    (fun entry member u before => advertiseOrigin_announcing entry u
      (before.originated ▸ originated entry member)) s same
  have second := forEach_from chains (Quiet start) selected
    (advertiseSelected now interface splitHorizon) kept
    (fun route member u before => advertiseSelected_announcing splitHorizon route u
      (before.selected ▸ routes route member)) _ (kept same first)
  have third : Meets _ (forEach tombstones (advertiseTombstone interface)) :=
    meets_forEach chains fun key _ u => advertiseTombstone_announcing key u
  exact chains.trans first (chains.trans second (third _))

theorem sendUpdatesOn_announces (only : Option RouteKey) (timing : Option SendTiming)
    (interface : InterfaceName) (start s : Engine P M) (same : Quiet start s)
    (originated : ∀ entry ∈ origins, start.originated.get? entry.1 = some entry.2)
    (routes : ∀ route ∈ selected, ∃ key, start.selected.get? key = some route) :
    Announces gone now s
      (sendUpdatesOn now only timing origins selected tombstones interface s).2
      (sendUpdatesOn now only timing origins selected tombstones interface s).1 := by
  unfold sendUpdatesOn
  cases up : s.interfaces.get? interface with
  | none => exact (announces_chains gone now).refl s
  | some state =>
    simp only
    have announcing : Announcing gone now s
        (sentOn interface state.policy.controlTransport.multicast
          (timing.getD (SendTiming.triggered now state.policy.helloIntervalCs)) _) _ :=
      updateTlvs_announcing origins selected tombstones state.policy.splitHorizon start s same
        originated routes
    split
    next empty =>
      rw [List.isEmpty_iff.mp empty, sentOn_nil] at announcing
      exact ⟨announcing, by simp⟩
    next =>
      refine ⟨?_, by simp [Action.isSend]⟩
      have marked : ∀ u : Engine P M, Quiet u
          (if only.isNone then
            { u with
              interfaces := u.interfaces.modify interface fun state =>
                { state with lastFullUpdateMs := some now } }
          else u) := by
        intro u
        split
        · exact ⟨⟨rfl, links_modify u interface _ fun _ => ⟨rfl, rfl⟩, fun _ => rfl, rfl, rfl, rfl,
            rfl, rfl, rfl, rfl⟩, rfl⟩
        · exact Quiet.refl u
      refine ⟨announcing.quiet.trans (marked _), ?_, ?_⟩
      · rw [sentUpdates_cons, sentUpdates_nil, List.append_nil, Action.sent,
          ← announcing.recorded]
        split <;> rfl
      · rw [sentUpdates_cons, sentUpdates_nil, List.append_nil, Action.sent]
        exact announcing.licensed

end Tlvs

theorem originsFor_found (s : Engine P M) (only : Option RouteKey) :
    ∀ entry ∈ s.originsFor only, s.originated.get? entry.1 = some entry.2 := by
  intro entry member
  have member := (List.mem_filter.mp member).1
  cases only with
  | none => exact OrdMap.get?_eq_some_iff.mpr member
  | some key =>
    obtain ⟨origin, found, rfl⟩ := List.mem_map.mp member
    exact Option.mem_toList.mp found

theorem selectedFor_found (s : Engine P M) (only : Option RouteKey) :
    ∀ route ∈ s.selectedFor only, ∃ key, s.selected.get? key = some route := by
  intro route member
  have member := (List.mem_filter.mp member).1
  cases only with
  | none => exact OrdMap.mem_values_iff.mp member
  | some key => exact ⟨key, Option.mem_toList.mp member⟩

theorem sendUpdates_announces (only : Option RouteKey) (interface : Option InterfaceName)
    (timing : Option SendTiming) :
    Meets (Announces (P := P) (M := M) gone now)
      (sendUpdates now only interface timing) := by
  intro s
  exact forEach_from (announces_chains gone now) (Quiet s) _ _
    (fun before announces => before.trans announces.quiet)
    (fun name _ u before => sendUpdatesOn_announces _ _ _ only timing name s u before
      (originsFor_found s only) (selectedFor_found s only))
    s (Quiet.refl s)

/-- `send_updates` restricted to some keys sends Updates for those keys only. -/
theorem sendUpdates_wanted (only : Option RouteKey) (interface : Option InterfaceName)
    (timing : Option SendTiming) (s : Engine P M) :
    ∀ sent ∈ sentUpdates (sendUpdates now only interface timing s).2,
      ∃ key, sent.update.key = some key ∧ wanted only key = true := by
  have tlvChains : Chains fun (_ : Engine P M) (tlvs : List OutboundTlv) _ =>
      ∀ update ∈ updatesOf tlvs, ∃ key, update.key = some key ∧ wanted only key = true := by
    refine ⟨by simp, ?_⟩
    intro _ _ _ first second left right update member
    rw [updatesOf_append] at member
    exact (List.mem_append.mp member).elim (left update) (right update)
  have chains : Chains fun (_ : Engine P M) (actions : List Action) _ =>
      ∀ sent ∈ sentUpdates actions, ∃ key, sent.update.key = some key ∧
        wanted only key = true := by
    refine ⟨by simp, ?_⟩
    intro _ _ _ first second left right sent member
    rw [sentUpdates_append] at member
    exact (List.mem_append.mp member).elim (left sent) (right sent)
  refine meets_forEach chains ?_ s
  intro name _ u
  simp only [sendUpdatesOn]
  cases u.interfaces.get? name with
  | none => simp
  | some state =>
    have tlvs : Meets _ (updateTlvs now name state.policy.splitHorizon
        (s.originsFor only) (s.selectedFor only) (s.tombstonesFor only)) :=
      meets_andThen tlvChains
        (meets_forEach tlvChains fun entry member v => by
          simpa [advertiseOrigin] using (List.mem_filter.mp member).2)
        (meets_andThen tlvChains
          (meets_forEach tlvChains fun route member v => by
            simp only [advertiseSelected]
            split
            · simp
            · simpa using (List.mem_filter.mp member).2)
          (meets_forEach tlvChains fun key member v => by
            simp only [advertiseTombstone]
            split
            · simpa using (List.mem_filter.mp member).2
            · simp))
    simp only
    split
    · simp
    · intro sent member
      simp only [sentUpdates_cons, Action.sent, sentOn, sentUpdates_nil, List.append_nil,
        List.mem_map] at member
      obtain ⟨update, inTlvs, rfl⟩ := member
      exact tlvs u update inTlvs

/-! ## Retractions and triggered Updates -/

theorem sent_sendRetraction {key : RouteKey} {seqno : UInt16} {sent : SentUpdate}
    (member : sent ∈ sentUpdates (s.sendRetraction key seqno now)) :
    sent.update.key = some key ∧ sent.update.metric = INFINITY := by
  obtain ⟨action, inActions, inSent⟩ := mem_sentUpdates.mp member
  obtain ⟨entry, _, rfl⟩ := List.mem_map.mp inActions
  simp only [Action.sent, sentOn_update, List.mem_singleton] at inSent
  subst inSent
  exact ⟨rfl, rfl⟩

theorem foldl_note_retractions (now : UInt64) (sent : List SentUpdate) (table : SourceTable)
    (infinite : ∀ item ∈ sent, item.update.metric = INFINITY) :
    sent.foldl (SourceTable.note now) table = table := by
  induction sent generalizing table with
  | nil => rfl
  | cons item rest ih =>
    rw [List.foldl_cons, SourceTable.note_retraction now table (infinite item List.mem_cons_self)]
    exact ih table fun other member => infinite other (List.mem_cons_of_mem _ member)

/-- Retractions record nothing, so they need only a license. -/
theorem sendRetraction_announces (s : Engine P M) (key : RouteKey) (seqno : UInt16)
    (licensed : ∀ sent : SentUpdate, sent.update.key = some key →
      sent.update.metric = INFINITY → Licensed gone s sent) :
    Announces gone now s (s.sendRetraction key seqno now) s := by
  refine ⟨⟨Quiet.refl s, ?_, ?_⟩, ?_⟩
  · rw [foldl_note_retractions now _ _ fun item member => (sent_sendRetraction member).2]
  · intro _ item member
    obtain ⟨named, infinite⟩ := sent_sendRetraction member
    exact licensed item named infinite
  · intro action member
    obtain ⟨entry, _, rfl⟩ := List.mem_map.mp member
    rfl

theorem quiet_repeatAdvertisement (key : RouteKey) (s : Engine P M) :
    Quiet s (s.repeatAdvertisement key now) :=
  ⟨⟨rfl, rfl, fun _ => rfl, rfl, rfl, rfl, rfl, rfl, rfl, rfl⟩, rfl⟩

theorem originateSeqnoRequest_announces (request : SeqnoRequestSpec) :
    Meets (Announces (P := P) (M := M) gone now) (originateSeqnoRequest request now) := by
  intro s
  refine Announces.wordless ⟨⟨rfl, rfl, fun _ => rfl, rfl, rfl, rfl, rfl, rfl, rfl, rfl⟩, rfl⟩ rfl ?_ ?_
  · simp [originateSeqnoRequest, seqnoRequestAction, Action.isSend]
  · simp [originateSeqnoRequest, seqnoRequestAction, Action.sent, sentOn, updatesOf]

theorem announceLoss_announces (targets : AssocMap RouteKey NeighborKey)
    (entry : RouteKey × SelectedRoute) (lost : gone entry.1) :
    Meets (Announces (P := P) (M := M) gone now) (announceLoss targets now entry) := by
  intro s
  have chains := announces_chains (P := P) (M := M) gone now
  simp only [announceLoss]
  split
  next => exact chains.refl s
  next absent =>
    have notSelected : s.selected.get? entry.1 = none := by simpa [OrdMap.containsKey] using absent
    have repeated : Announces gone now s [] (s.repeatAdvertisement entry.1 now) :=
      Announces.wordless (quiet_repeatAdvertisement entry.1 s) rfl (by simp) (by simp)
    have retracted : Announces gone now s _ _ := chains.trans repeated
      (sendRetraction_announces (s.repeatAdvertisement entry.1 now) entry.1 entry.2.seqno
        fun sent named infinite => .lost entry.1 named infinite lost notSelected)
    split
    next =>
      split
      · exact retracted
      · exact chains.trans retracted (originateSeqnoRequest_announces _ _)
    next => exact retracted

theorem sent_advertiseLearned {route : SelectedRoute} {sent : SentUpdate}
    (member : sent ∈ sentUpdates (s.advertiseLearned route now)) :
    sent.update = s.advertisement sent.interface route.key route.routerId route.seqno
      route.metric := by
  obtain ⟨action, inActions, inSent⟩ := mem_sentUpdates.mp member
  obtain ⟨entry, _, made⟩ := List.mem_filterMap.mp inActions
  simp only at made
  split at made
  · cases made
  · cases made
    simp only [Action.sent, sentOn_update, List.mem_singleton] at inSent
    subst inSent
    rfl

theorem sends_advertiseLearned {route : SelectedRoute} {action : Action}
    (member : action ∈ s.advertiseLearned route now) :
    ∃ entry ∈ s.interfaces.entries, action = .send entry.1
      entry.2.policy.controlTransport.multicast
      ⟨[.update (s.advertisement entry.1 route.key route.routerId route.seqno route.metric)]⟩
      (SendTiming.urgent now) := by
  obtain ⟨entry, inEntries, made⟩ := List.mem_filterMap.mp member
  simp only at made
  split at made
  · cases made
  · cases made
    exact ⟨entry, inEntries, rfl⟩

/-- Noting several finite Updates of one route is noting it once. -/
theorem foldl_note_same (now : UInt64) (key : RouteKey) (routerId : RouterId)
    (distance : Distance) (sent : List SentUpdate) (table : SourceTable)
    (same : ∀ item ∈ sent, item.update.metric = INFINITY ∨
      ∀ table : SourceTable, table.note now item = table.maintain key routerId distance now) :
    sent.foldl (SourceTable.note now) table =
      if sent.any fun item => item.update.metric != INFINITY then
        table.maintain key routerId distance now
      else table := by
  induction sent generalizing table with
  | nil => rfl
  | cons item rest ih =>
    have later := fun other member => same other (List.mem_cons_of_mem item member)
    rw [List.foldl_cons, ih _ later, List.any_cons]
    by_cases infinite : item.update.metric = INFINITY
    · simp [SourceTable.note_retraction now table infinite, infinite]
    · have noted := (same item List.mem_cons_self).resolve_left infinite table
      rw [noted]
      cases rest.any fun item => item.update.metric != INFINITY with
      | false => simp [infinite]
      | true => simp [SourceTable.maintain_maintain]

theorem any_sendsFinite (actions : List Action) :
    actions.any sendsFinite =
      (sentUpdates actions).any fun item => item.update.metric != INFINITY := by
  have tlvs : ∀ list : List OutboundTlv,
      list.any finiteUpdate = (updatesOf list).any fun update => update.metric != INFINITY := by
    intro list
    induction list with
    | nil => rfl
    | cons tlv rest ih => cases tlv <;> simp_all [finiteUpdate, updatesOf]
  induction actions with
  | nil => rfl
  | cons action rest ih =>
    rw [List.any_cons, sentUpdates_cons, List.any_append, ih]
    cases action <;> simp [sendsFinite, Action.sent, sentOn, tlvs, List.any_map, Function.comp_def]

theorem announceChange_announces (route : SelectedRoute) (s : Engine P M)
    (found : s.selected.get? route.key = some route) :
    Announces gone now s (announceChange now route s).2 (announceChange now route s).1 := by
  let repeated := s.repeatAdvertisement route.key now
  have quiet : Quiet s repeated := quiet_repeatAdvertisement route.key s
  have selected : repeated.selected.get? route.key = some route := found
  refine ⟨⟨quiet.trans (quiet_maintainWhen _ _ _ _ repeated), ?_, ?_⟩, ?_⟩
  · change (if (repeated.advertiseLearned route now).any sendsFinite then _ else repeated).feasible =
      (sentUpdates (repeated.advertiseLearned route now)).foldl (SourceTable.note now)
        repeated.feasible
    rw [any_sendsFinite, foldl_note_same now route.key route.routerId ⟨route.seqno, route.metric⟩]
    · split <;> rfl
    · intro item member
      have update := sent_advertiseLearned member
      by_cases infinite : item.update.metric = INFINITY
      · exact Or.inl infinite
      · refine Or.inr fun table => ?_
        have exactMetric : item.update.metric = route.metric := by
          rw [update] at infinite ⊢
          exact advertisement_metric_of_finite infinite
        have finite : route.metric ≠ INFINITY := exactMetric ▸ infinite
        simp only [SourceTable.note, exactMetric]
        rw [update]
        simp [finite]
  · intro _ item member
    have licensed : Licensed gone repeated item :=
      .selected route selected (sent_advertiseLearned member)
    exact licensed.of_frame quiet.toFrame
  · intro action member
    obtain ⟨entry, _, rfl⟩ := sends_advertiseLearned member
    rfl

theorem selectedDelta_announces (order : HashOrder) (before : OrdMap RouteKey SelectedRoute)
    (s : Engine P M) (keyed : SelectedKeyed s) :
    Announces (fun key => before.containsKey key = true) now s
      (selectedDelta order before now s).2 (selectedDelta order before now s).1 := by
  have chains := announces_chains (P := P) (M := M) (fun key => before.containsKey key = true) now
  have losses : Meets (Announces (P := P) (M := M) _ now)
      (forEach before.entries (announceLoss (s.requestTargets order before) now)) :=
    meets_forEach chains fun entry member => announceLoss_announces _ entry
      (OrdMap.containsKey_iff.mpr ⟨entry.2, OrdMap.get?_eq_some_iff.mpr member⟩)
  refine chains.trans (losses s) ?_
  refine forEach_from chains (Quiet s) _ _
    (fun before announces => before.trans announces.quiet) ?_ _ (losses s).quiet
  intro route member u same
  obtain ⟨entry, inEntries, rfl⟩ := List.mem_map.mp member
  have found : s.selected.get? entry.1 = some entry.2 :=
    OrdMap.get?_eq_some_iff.mpr (List.mem_filter.mp inEntries).1
  have named : entry.2.key = entry.1 := keyed entry.1 entry.2 found
  exact announceChange_announces entry.2 u (by rw [same.selected, named]; exact found)

/-! ## Requests and schedules -/

theorem forwardRequest_announces (order : HashOrder) (requester : NeighborKey) (key : RouteKey) (seqno : UInt16)
    (hopCount : UInt8) (routerId : RouterId) :
    Meets (Announces (P := P) (M := M) gone now)
      (forwardRequest order requester key seqno hopCount routerId now) := by
  intro s
  have chains := announces_chains (P := P) (M := M) gone now
  unfold forwardRequest
  split_ifs
  · exact chains.refl s
  · exact chains.refl s
  · cases s.forwardingTarget order requester key routerId with
    | none => exact chains.refl s
    | some nextHop => exact originateSeqnoRequest_announces _ s

theorem retryRequest_announces (entry : (RouteKey × RouterId) × PendingSeqnoRequest) :
    Meets (Announces (P := P) (M := M) gone now) (retryRequest now entry) := by
  intro s
  unfold retryRequest
  split_ifs
  · exact Announces.wordless ⟨⟨rfl, rfl, fun _ => rfl, rfl, rfl, rfl, rfl, rfl, rfl, rfl⟩, rfl⟩ rfl
      (by simp) (by simp)
  · refine Announces.wordless ⟨⟨rfl, rfl, fun _ => rfl, rfl, rfl, rfl, rfl, rfl, rfl, rfl⟩, rfl⟩ rfl ?_ ?_
    · simp [seqnoRequestAction, Action.isSend]
    · simp [seqnoRequestAction, Action.sent, sentOn, updatesOf]

theorem retryRequests_announces (order : HashOrder) :
    Meets (Announces (P := P) (M := M) gone now) (retryRequests order now) := fun s =>
  meets_forEach (announces_chains gone now) (fun entry _ => retryRequest_announces entry) s

theorem adjacency_reschedule (s : Engine P M) {key : NeighborKey} {neighbour : Neighbor M}
    (found : s.neighbours.get? key = some neighbour) (nextIhuMs : UInt64)
    (nextRttProbeMs : Option UInt64) (unicastHelloSeqno : UInt16) (other : NeighborKey) :
    ({ s with
        neighbours := s.neighbours.insert key
          { neighbour with
            nextIhuMs := nextIhuMs
            nextRttProbeMs := nextRttProbeMs
            unicastHelloSeqno := unicastHelloSeqno } } : Engine P M).adjacency other =
      s.adjacency other := by
  simp only [adjacency, AssocMap.get?_insert]
  by_cases here : key = other
  · subst here
    simp [found]
  · simp [here]

end Engine

end BabelRs
