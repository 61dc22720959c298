import BabelRs.Safety.Phases

/-!
# A local origin owns its key

While nobody else's route for an originated key is stored, every Update of the
key is the node's own origin, with the number it has at that moment.
-/

set_option autoImplicit false

namespace BabelRs

open Lib Lib.Effect

/-! ## The local sequence number -/

def Action.renumber (number : UInt16) : Action → UInt16
  | .sequenceNumberChanged next => next
  | _ => number

/-- The number the host knows after a list of actions. -/
def seqnoAfter (number : UInt16) (actions : List Action) : UInt16 :=
  actions.foldl Action.renumber number

@[simp] theorem seqnoAfter_nil (number : UInt16) : seqnoAfter number [] = number := rfl

theorem seqnoAfter_append (number : UInt16) (first second : List Action) :
    seqnoAfter number (first ++ second) = seqnoAfter (seqnoAfter number first) second :=
  List.foldl_append

/-- Every Update of the key has the `voice` of the number known when it is sent. -/
def Speaks (key : RouteKey) (voice : UInt16 → SentUpdate → Prop) : UInt16 → List Action → Prop
  | _, [] => True
  | number, action :: rest =>
    (∀ sent ∈ action.sent, sent.update.key = some key → voice number sent) ∧
      Speaks key voice (action.renumber number) rest

section Speaks
variable {key : RouteKey} {voice : UInt16 → SentUpdate → Prop}

variable {number : UInt16}

theorem speaks_append {first second : List Action} :
    Speaks key voice number (first ++ second) ↔
      Speaks key voice number first ∧ Speaks key voice (seqnoAfter number first) second := by
  induction first generalizing number with
  | nil => simp [Speaks]
  | cons action rest ih =>
    simp only [List.cons_append, Speaks, ih, and_assoc]
    rfl

variable {actions : List Action}

theorem speaks_of_constant (constant : ∀ action ∈ actions, action.renumber number = number)
    (spoken : ∀ sent ∈ sentUpdates actions, sent.update.key = some key → voice number sent) :
    Speaks key voice number actions := by
  induction actions with
  | nil => trivial
  | cons action rest ih =>
    simp only [sentUpdates_cons, List.mem_append] at spoken
    refine ⟨fun sent member => spoken sent (Or.inl member), ?_⟩
    rw [constant action List.mem_cons_self]
    exact ih (fun other member => constant other (List.mem_cons_of_mem _ member))
      fun sent member => spoken sent (Or.inr member)

theorem renumber_send {action : Action} (isSend : action.isSend = true) :
    action.renumber number = number := by
  cases action with
  | send _ _ _ _ => rfl
  | _ => cases isSend

theorem speaks_of_silent
    (silent : ∀ action ∈ actions, ∀ sent ∈ action.sent, sent.update.key ≠ some key) :
    Speaks key voice number actions := by
  induction actions generalizing number with
  | nil => trivial
  | cons action rest ih =>
    exact ⟨fun sent member named => absurd named (silent action List.mem_cons_self sent member),
      ih fun other member => silent other (List.mem_cons_of_mem _ member)⟩

theorem Speaks.at {earlier later : List Action} {action : Action}
    (speaks : Speaks key voice number (earlier ++ action :: later)) {sent : SentUpdate}
    (member : sent ∈ action.sent) (named : sent.update.key = some key) :
    voice (seqnoAfter number earlier) sent :=
  (speaks_append.mp speaks).2.1 sent member named

theorem seqnoAfter_constant (constant : ∀ action ∈ actions, action.renumber number = number) :
    seqnoAfter number actions = number := by
  induction actions with
  | nil => rfl
  | cons action rest ih =>
    show seqnoAfter (action.renumber number) rest = number
    rw [constant action List.mem_cons_self]
    exact ih fun other member => constant other (List.mem_cons_of_mem _ member)

end Speaks

/-! ## Origins -/

theorem validateOrigin_finite {key : RouteKey} {metric : UInt16}
    (valid : key.validateOrigin metric = .ok ()) : metric ≠ INFINITY := by
  intro infinite
  cases named : key.validate with
  | error failure => simp [RouteKey.validateOrigin, named, bind, Except.bind] at valid
  | ok _ => simp [RouteKey.validateOrigin, named, infinite, bind, Except.bind] at valid

theorem validateOrigins_finite {entries : List (RouteKey × UInt16)}
    (valid : validateOrigins entries = .ok ()) :
    ∀ entry ∈ entries, entry.2 ≠ INFINITY := by
  induction entries with
  | nil => simp
  | cons entry rest ih =>
    obtain ⟨key, metric⟩ := entry
    cases here : key.validateOrigin metric with
    | error failure => simp [validateOrigins, here, bind, Except.bind] at valid
    | ok _ =>
      simp only [validateOrigins, here, bind, Except.bind] at valid
      intro other member
      rcases List.mem_cons.mp member with rfl | later
      · exact validateOrigin_finite here
      · exact ih valid other later

/-- A validated event installs finite origins only. -/
theorem Event.originMetric_finite {P : Type} {event : Event P} (valid : event.validate = .ok ())
    {key : RouteKey} {metric : UInt16} (installs : event.originMetric key = some metric) :
    metric ≠ INFINITY := by
  cases event with
  | originate origin other now =>
    simp only [Event.originMetric, Option.ite_none_right_eq_some, Option.some.injEq] at installs
    rw [← installs.2]
    exact validateOrigin_finite valid
  | replaceOrigins origins now =>
    exact validateOrigins_finite valid (key, metric) (OrdMap.get?_eq_some_iff.mp installs)
  | _ => cases installs

namespace Engine

variable {P M : Type} {now : UInt64} {key : RouteKey}
variable {s t : Engine P M} {actions : List Action} {event : Event P} {neighbour : NeighborKey}

/-- Every origin is finite and carries the local sequence number. -/
def OriginsCurrent (s : Engine P M) : Prop :=
  ∀ key origin, s.originated.get? key = some origin →
    origin.seqno = s.sequenceNumber ∧ origin.metric ≠ INFINITY

theorem OriginsCurrent.of_same (current : OriginsCurrent s)
    (originated : t.originated = s.originated) (number : t.sequenceNumber = s.sequenceNumber) :
    OriginsCurrent t := by
  intro key origin found
  rw [number]
  exact current key origin (originated ▸ found)

theorem OriginsCurrent.bump (current : OriginsCurrent s) :
    OriginsCurrent s.bumpSequenceNumber := by
  intro key origin found
  simp only [bumpSequenceNumber, OrdMap.get?_mapValues, Option.map_eq_some_iff] at found
  obtain ⟨old, stored, rfl⟩ := found
  exact ⟨rfl, (current key old stored).2⟩

theorem Reconfigures.originsCurrent (reconfigures : Reconfigures s t) (current : OriginsCurrent s) :
    OriginsCurrent t :=
  current.of_same reconfigures.originated reconfigures.sequenceNumber

theorem Prelude.originsCurrent [NeighborMetric M] [MetricProfile P M]
    (prelude : Prelude now s actions t) (current : OriginsCurrent s) :
    OriginsCurrent t := by
  cases prelude with
  | sensed silent => exact silent.senses.toReconfigures.originsCurrent current
  | collected => exact current.of_same rfl rfl
  | invalidated => exact current

variable {before : Engine P M}

theorem Edit.originsCurrent (valid : event.validate = .ok ()) (edit : Edit before event s actions t)
    (current : OriginsCurrent s) : OriginsCurrent t := by
  cases edit with
  | scheduled _ => exact current.of_same rfl rfl
  | lifted _ => exact current.of_same rfl rfl
  | bumped => exact current.bump
  | reoriginated origins _ fresh =>
    intro key origin found
    rcases fresh key origin found with kept | ⟨number, installed⟩
    · exact current key origin kept
    · exact ⟨number, Event.originMetric_finite valid installed⟩

variable {tlv : Tlv} {changed : Bool}

section Events
variable [NeighborMetric M]

theorem TlvEffect.originsCurrent (effect : TlvEffect neighbour now tlv s actions t changed)
    (current : OriginsCurrent s) :
    OriginsCurrent t := by
  cases effect with
  | announced announces _ =>
    exact current.of_same announces.quiet.originated announces.quiet.sequenceNumber
  | bumped _ _ announces _ =>
    exact current.bump.of_same announces.quiet.originated announces.quiet.sequenceNumber
  | updated update isUpdate effect =>
    cases effect with
    | announced announces _ =>
      exact current.of_same announces.quiet.originated announces.quiet.sequenceNumber
    | retractedAll _ _ => exact current.of_same rfl rfl
    | retracted _ _ _ => exact current.of_same rfl rfl
    | rejected finite _ =>
      simp only [rejectByPolicy]
      split
      · exact current.of_same rfl rfl
      · exact current
    | limited _ => exact current.of_same rfl rfl
    | stored finite state resolved admitted known _ feasible requests =>
      have quiet := requests_quiet requests
      exact current.of_same quiet.originated quiet.sequenceNumber

variable [MetricProfile P M]

theorem moves_originsCurrent (event : Event P) :
    Moves event fun (s : Engine P M) _ t => OriginsCurrent s → OriginsCurrent t where
  prelude := Prelude.originsCurrent
  reselects := fun move current => current.of_same move.tables.originated move.tables.sequenceNumber
  output := fun move current =>
    current.of_same move.coda.sameRoutes.originated move.coda.sameRoutes.sequenceNumber
  observation := fun _ move => move.senses.2.toReconfigures.originsCurrent
  tlv := by
    intro neighbour tlvs tlv _ _ order state
    obtain ⟨_, _, effect⟩ := receiveTlv_effect order neighbour event.now tlv state
    exact effect.originsCurrent

theorem RunOf.originsCurrent {allowed : Engine P M → Event P → Bool}
    {history : List (Event P × List Action)} {engine : Engine P M}
    (run : RunOf allowed history engine) : OriginsCurrent engine := by
  refine run.invariant (fun _ engine => OriginsCurrent engine) ?_ ?_
  · intro s starts
    obtain ⟨config, _, rfl⟩ := starts.eq_initial
    intro key origin found
    cases found
  · rintro history s event actions t current ⟨_, order, handled⟩
    obtain ⟨valid, _, rfl⟩ := tryHandle_ok handled
    obtain ⟨start, change, kept⟩ := (handleValidated_dispatched order event s).fold
      (keeps_chains OriginsCurrent) (moves_originsCurrent event)
      fun _ _ _ _ => Edit.originsCurrent valid
    exact kept (change.reconfigures.originsCurrent current)

end Events

/-! ## Uncontested keys -/

/-- The advertisement of an origin from the links and configuration of `home`. -/
def OwnVoice (home : Engine P M) (key : RouteKey) (metric : UInt16) (number : UInt16)
    (sent : SentUpdate) : Prop :=
  sent.update = home.advertisement sent.interface key home.config.routerId number metric

/-- The key is originated with a metric, and nobody else's route for it is known. -/
structure Uncontested (home : Engine P M) (key : RouteKey) (metric : UInt16) (s : Engine P M) :
    Prop where
  config : s.config = home.config
  links : s.links = home.links
  keyed : SelectedKeyed s
  current : OriginsCurrent s
  own : (s.originated.get? key).map Originated.metric = some metric
  unselected : s.selected.get? key = none
  unheard : ∀ entry candidate, s.candidates.get? entry = some candidate → candidate.key ≠ key

/-- The number follows the actions, and the key is spoken for by its origin. -/
structure Voices (home : Engine P M) (key : RouteKey) (metric : UInt16) (s : Engine P M)
    (actions : List Action) (t : Engine P M) : Prop where
  number : t.sequenceNumber = seqnoAfter s.sequenceNumber actions
  speaks : Speaks key (OwnVoice home key metric) s.sequenceNumber actions

theorem voices_chains (home : Engine P M) (key : RouteKey) (metric : UInt16) :
    Chains (Voices home key metric) where
  refl := fun _ => ⟨rfl, trivial⟩
  trans := by
    intro s middle t first second left right
    refine ⟨?_, speaks_append.mpr ⟨left.speaks, ?_⟩⟩
    · rw [right.number, left.number, seqnoAfter_append]
    · rw [← left.number]
      exact right.speaks

def Owns (home : Engine P M) (key : RouteKey) (metric : UInt16) :
    Engine P M → List Action → Engine P M → Prop :=
  Effect.Guarded (Uncontested home key metric) (Voices home key metric)

theorem owns_chains (home : Engine P M) (key : RouteKey) (metric : UInt16) :
    Chains (Owns home key metric) :=
  guarded_chains _ (voices_chains home key metric)

section Moves
variable {home : Engine P M} {metric : UInt16}

theorem Uncontested.fade (uncontested : Uncontested home key metric s)
    (config : t.config = s.config) (links : t.links = s.links)
    (originated : t.originated = s.originated) (number : t.sequenceNumber = s.sequenceNumber)
    (selected : t.selected = s.selected) (fades : Fades s t) : Uncontested home key metric t where
  config := config.trans uncontested.config
  links := links.trans uncontested.links
  keyed := uncontested.keyed.of_selected selected
  current := uncontested.current.of_same originated number
  own := originated ▸ uncontested.own
  unselected := selected ▸ uncontested.unselected
  unheard := by
    intro entry candidate found
    obtain ⟨old, stored, faded⟩ := fades entry candidate found
    rw [faded.key]
    exact uncontested.unheard entry old stored

theorem SameRoutes.uncontested (same : SameRoutes s t)
    (uncontested : Uncontested home key metric s) : Uncontested home key metric t :=
  uncontested.fade same.config same.links same.originated same.sequenceNumber same.selected
    (Fades.of_kept fun _ _ found => same.candidates ▸ found)

/-- The only license for an uncontested key is its origin. -/
theorem Uncontested.voiced (uncontested : Uncontested home key metric s) {gone : RouteKey → Prop}
    {sent : SentUpdate} (licensed : Licensed gone s sent) (kept : ¬ gone key)
    (named : sent.update.key = some key) :
    OwnVoice home key metric s.sequenceNumber sent := by
  cases licensed with
  | origin other entry found same =>
    have here : other = key := by
      rw [same] at named
      exact Option.some.inj named
    subst here
    have installed : entry.metric = metric := by
      have own := uncontested.own
      rw [found] at own
      exact Option.some.inj own
    rw [OwnVoice, same, (uncontested.current _ entry found).1, installed, uncontested.config]
    exact advertisement_congr uncontested.config uncontested.links _ _ _ _ _
  | selected route found same =>
    have here : route.key = key := by
      rw [same] at named
      exact Option.some.inj named
    rw [here, uncontested.unselected] at found
    cases found
  | absent other names _ notOriginated _ =>
    have here : other = key := Option.some.inj (names.symm.trans named)
    have own := uncontested.own
    rw [← here, notOriginated] at own
    cases own
  | lost other names _ lost _ =>
    rw [Option.some.inj (names.symm.trans named)] at lost
    exact absurd lost kept

theorem Announces.owns (announces : Announces nothingLost now s actions t) :
    Owns home key metric s actions t := by
  intro uncontested
  have constant : ∀ action ∈ actions, action.renumber s.sequenceNumber = s.sequenceNumber :=
    fun action member => renumber_send (announces.sends action member)
  refine ⟨announces.quiet.sameRoutes.uncontested uncontested, ?_, ?_⟩
  · rw [seqnoAfter_constant constant]
    exact announces.quiet.sequenceNumber
  · exact speaks_of_constant constant fun sent member named =>
      uncontested.voiced (announces.licensed uncontested.keyed sent member) id named

theorem Owns.of_quiet (kept : Uncontested home key metric s → Uncontested home key metric t)
    (number : t.sequenceNumber = s.sequenceNumber)
    (constant : ∀ action ∈ actions, ∀ number, action.renumber number = number)
    (silent : sentUpdates actions = []) : Owns home key metric s actions t := by
  intro uncontested
  refine ⟨kept uncontested, ?_, ?_⟩
  · rw [seqnoAfter_constant fun action member => constant action member _]
    exact number
  · refine speaks_of_constant (fun action member => constant action member _) ?_
    rw [silent]
    simp

theorem Senses.owns (senses : Senses s t) : Owns home key metric s [] t :=
  .of_quiet (fun uncontested => uncontested.fade senses.config senses.links senses.originated
    senses.sequenceNumber senses.selected senses.fades) senses.sequenceNumber (by simp) rfl

theorem Prelude.owns [NeighborMetric M] [MetricProfile P M] (prelude : Prelude now s actions t) :
    Owns home key metric s actions t := by
  cases prelude with
  | sensed silent => exact silent.senses.owns
  | collected =>
    exact .of_quiet (fun uncontested => uncontested.fade rfl rfl rfl rfl rfl
      (Fades.of_kept fun _ _ found => found)) rfl (by simp) rfl
  | invalidated => exact .of_quiet id rfl (by simp [Action.renumber]) rfl

theorem Coda.owns (coda : Coda now s actions t) :
    Owns home key metric s actions t := by
  have kept := coda.sameRoutes
  cases coda with
  | announced announces => exact announces.owns
  | reported =>
    exact .of_quiet kept.uncontested rfl (by simp [routeSnapshot, Action.renumber]) rfl
  | held _ _ _ => exact .of_quiet kept.uncontested rfl (by simp) rfl
  | lifted _ _ => exact .of_quiet kept.uncontested rfl (by simp) rfl

/-- Reselection finds nothing to select for an uncontested key. -/
theorem reselect_uncontested (order : HashOrder) (uncontested : Uncontested home key metric s) :
    Uncontested home key metric (reselect order now s).1 := by
  have tables := reselect_tables order now s
  refine ⟨tables.config.trans uncontested.config, tables.links.trans uncontested.links,
    reselect_keyed order now s,
    uncontested.current.of_same tables.originated tables.sequenceNumber,
    tables.originated ▸ uncontested.own, ?_, tables.candidates ▸ uncontested.unheard⟩
  by_contra selected
  obtain ⟨route, found⟩ := Option.ne_none_iff_exists'.mp selected
  rw [reselect_selected] at found
  obtain ⟨candidate, stored, _, named, _⟩ := reselectState_chosen order now s found
  obtain ⟨entry, located⟩ := AssocMap.mem_values_iff.mp stored
  exact uncontested.unheard entry candidate located named

theorem Reselects.owns (reselects : Reselects now s actions t) :
    Owns home key metric s actions t := by
  cases reselects with
  | skipped => exact (owns_chains home key metric).refl s
  | taken order =>
    intro uncontested
    have chosen : Uncontested home key metric (reselect order now s).1 :=
      reselect_uncontested order uncontested
    have number := (reselect_tables order now s).sequenceNumber
    have constant : ∀ action ∈ (reselect order now s).2,
        action.renumber s.sequenceNumber = s.sequenceNumber := by
      intro action member
      rcases reselect_cases order now s with ⟨silent, _, _⟩ | ⟨delta, actions, announces⟩
      · rw [silent] at member
        cases member
      · rw [actions] at member
        rcases List.mem_cons.mp member with rfl | later
        · rfl
        · exact renumber_send (announces.sends action later)
    refine ⟨chosen, ?_, speaks_of_constant constant fun sent member named => ?_⟩
    · rw [seqnoAfter_constant constant]
      exact number
    · rw [← number]
      refine chosen.voiced (reselect_licensed order now s sent member) ?_ named
      rw [OrdMap.containsKey, uncontested.unselected]
      exact Bool.false_ne_true

/-! ### Route TLVs -/

section Packets
variable [NeighborMetric M]

omit [NeighborMetric M] in
theorem admissible_congr (config : t.config = s.config) (neighbour : NeighborKey)
    (update : FiniteUpdate) : t.admissible neighbour update = s.admissible neighbour update := by
  simp only [admissible, config]

omit [NeighborMetric M] in
theorem Uncontested.bump (uncontested : Uncontested home key metric s) :
    Uncontested home key metric s.bumpSequenceNumber where
  config := uncontested.config
  links := uncontested.links
  keyed := uncontested.keyed
  current := uncontested.current.bump
  own := by
    have own := uncontested.own
    simpa [bumpSequenceNumber, Function.comp_def] using own
  unselected := uncontested.unselected
  unheard := uncontested.unheard

/-- A TLV that carries no admissible finite Update of the key. -/
def Spares (home : Engine P M) (neighbour : NeighborKey) (key : RouteKey) (tlv : Tlv) : Prop :=
  ∀ update finite, tlv = .update update → resolvedFinite update = some finite →
    home.admissible neighbour finite = true → finite.key ≠ key

theorem TlvEffect.uncontested (effect : TlvEffect neighbour now tlv s actions t changed)
    (spares : Spares home neighbour key tlv) (uncontested : Uncontested home key metric s) :
    Uncontested home key metric t where
  config := effect.receives.config.trans uncontested.config
  links := effect.receives.links.trans uncontested.links
  keyed := uncontested.keyed.of_selected effect.receives.selected
  current := effect.originsCurrent uncontested.current
  own := (effect.receives.metrics key).trans uncontested.own
  unselected := effect.receives.selected ▸ uncontested.unselected
  unheard := by
    intro entry candidate found
    rcases effect.candidates found with
      ⟨old, stored, faded⟩ | ⟨update, finite, extended, isUpdate, resolved, admitted, _, rfl⟩
    · rw [faded.key]
      exact uncontested.unheard entry old stored
    · rw [admissible_congr uncontested.config] at admitted
      exact spares update finite isUpdate resolved admitted

theorem TlvEffect.owns (effect : TlvEffect neighbour now tlv s actions t changed)
    (spares : Spares home neighbour key tlv) : Owns home key metric s actions t := by
  intro uncontested
  have kept := effect.uncontested spares uncontested
  cases effect with
  | announced announces _ => exact announces.owns uncontested
  | bumped other own announces _ =>
    obtain ⟨_, number, speaks⟩ := (announces.owns : Owns home key metric _ _ _) uncontested.bump
    exact ⟨kept, number, by simp [Action.sent], speaks⟩
  | updated update isUpdate effect =>
    cases effect with
    | announced announces _ => exact announces.owns uncontested
    | retractedAll _ _ => exact ⟨kept, rfl, trivial⟩
    | retracted _ _ _ => exact ⟨kept, rfl, trivial⟩
    | rejected finite _ =>
      refine ⟨kept, ?_, trivial⟩
      simp only [rejectByPolicy]
      split <;> rfl
    | limited _ => exact ⟨kept, rfl, trivial⟩
    | @stored finite state settled replies resolved admitted known _ feasible requests =>
      have quiet := requests_quiet requests
      have constant : ∀ action ∈ replies,
          action.renumber s.sequenceNumber = s.sequenceNumber := by
        intro action member
        rcases requests with ⟨announces, _⟩ | ⟨_, answers⟩
        · exact renumber_send (announces.sends action member)
        · exact renumber_send (answers.sends action member)
      refine ⟨kept, ?_, speaks_of_constant constant fun sent member named => ?_⟩
      · rw [seqnoAfter_constant constant]
        exact quiet.sequenceNumber
      · rcases requests with ⟨_, silent⟩ | ⟨_, answers⟩
        · rw [silent] at member
          cases member
        · -- An answer is about the received key, which is another one.
          rw [(answers.replies sent member).2.2] at named
          rw [admissible_congr uncontested.config] at admitted
          exact absurd (Option.some.inj named) (spares update finite isUpdate resolved admitted)

end Packets

/-! ### Edited origins -/

/-- The part of being uncontested that does not speak of the origin itself. -/
structure Clear (key : RouteKey) (s : Engine P M) : Prop where
  keyed : SelectedKeyed s
  current : OriginsCurrent s
  unselected : s.selected.get? key = none
  unheard : ∀ entry candidate, s.candidates.get? entry = some candidate → candidate.key ≠ key

theorem Edit.fades (edit : Edit before event s actions t) : Fades s t := by
  cases edit with
  | scheduled _ => exact Fades.of_kept fun _ _ found => found
  | lifted _ => exact Fades.of_kept fun _ _ found => found
  | bumped => exact Fades.of_kept fun _ _ found => found
  | reoriginated _ _ _ => exact Fades.of_kept fun _ _ found => found

theorem Edit.clear (valid : event.validate = .ok ()) (edit : Edit before event s actions t)
    (clear : Clear key s) :
    Clear key t where
  keyed := clear.keyed.of_selected edit.selected
  current := edit.originsCurrent valid clear.current
  unselected := edit.selected ▸ clear.unselected
  unheard := by
    intro entry candidate found
    obtain ⟨old, stored, faded⟩ := edit.fades entry candidate found
    rw [faded.key]
    exact clear.unheard entry old stored

/-- An edit sends nothing, and the host learns its number. -/
def Numbered (s : Engine P M) (actions : List Action) (t : Engine P M) : Prop :=
  t.sequenceNumber = seqnoAfter s.sequenceNumber actions ∧ sentUpdates actions = []

theorem numbered_chains : Chains (Numbered (P := P) (M := M)) where
  refl := fun _ => ⟨rfl, rfl⟩
  trans := by
    intro s middle t first second left right
    refine ⟨?_, ?_⟩
    · rw [right.1, left.1, seqnoAfter_append]
    · rw [sentUpdates_append, left.2, right.2]
      rfl

theorem Edit.numbered (edit : Edit before event s actions t) :
    Numbered s actions t := by
  cases edit with
  | scheduled _ => exact ⟨rfl, rfl⟩
  | lifted _ => exact ⟨rfl, rfl⟩
  | bumped => exact ⟨rfl, rfl⟩
  | reoriginated _ _ _ => exact ⟨rfl, rfl⟩

/-! ## Whole events -/

section Events
variable [NeighborMetric M] [MetricProfile P M]

theorem owns_moves
    (spares : ∀ neighbour tlvs, event.received = some (neighbour, tlvs) → ∀ tlv ∈ tlvs,
      Spares home neighbour key tlv) : Moves event (Owns home key metric) where
  prelude := Prelude.owns
  reselects := Reselects.owns
  output := fun move => move.coda.owns
  observation := by
    intro s t actions neighbour tlvs _ move
    obtain ⟨rfl, senses⟩ := move.senses
    exact senses.owns
  tlv := by
    intro neighbour tlvs tlv received member order state
    obtain ⟨_, _, effect⟩ := receiveTlv_effect order neighbour event.now tlv state
    exact effect.owns (spares _ _ received _ member)

def keepsOrigin (s : Engine P M) (event : Event P) (key : RouteKey) : Bool :=
  s.originated.containsKey key && s.originsAfter event key

/-- No kept origin is contested: no route for it is stored or selected, and the
packet, if the event is one, brings none. -/
def originsUncontested (s : Engine P M) (event : Event P) : Bool :=
  (s.candidates.values.all fun candidate => !s.keepsOrigin event candidate.key) &&
    (s.selected.keys.all fun key => !s.keepsOrigin event key) &&
    match event.received with
    | none => true
    | some (neighbour, tlvs) =>
      tlvs.all fun tlv =>
        match tlv with
        | .update update =>
          (resolvedFinite update).all fun finite =>
            !(s.admissible neighbour finite && s.keepsOrigin event finite.key)
        | _ => true

omit [NeighborMetric M] [MetricProfile P M] in
theorem originsUncontested_spares (allowed : originsUncontested s event = true)
    (kept : s.keepsOrigin event key = true) {tlvs : List Tlv}
    (received : event.received = some (neighbour, tlvs)) :
    ∀ tlv ∈ tlvs, Spares s neighbour key tlv := by
  intro tlv member update finite isUpdate resolved admitted same
  have packet := (Bool.and_eq_true_iff.mp allowed).2
  rw [received] at packet
  have here := List.all_eq_true.mp packet tlv member
  rw [isUpdate] at here
  simp [resolved, admitted, same, kept] at here

omit [NeighborMetric M] [MetricProfile P M] in
theorem originsUncontested_start (allowed : originsUncontested s event = true)
    (kept : s.keepsOrigin event key = true) (keyed : SelectedKeyed s) (current : OriginsCurrent s) :
    ∃ metric, Uncontested s key metric s := by
  obtain ⟨origin, found⟩ := OrdMap.containsKey_iff.mp (Bool.and_eq_true_iff.mp kept).1
  obtain ⟨unheard, unselected⟩ := Bool.and_eq_true_iff.mp (Bool.and_eq_true_iff.mp allowed).1
  refine ⟨origin.metric, rfl, rfl, keyed, current, by rw [found]; rfl, ?_, ?_⟩
  · by_contra selected
    have listed : key ∈ s.selected.keys := by
      rw [OrdMap.mem_keys_iff, OrdMap.containsKey, Option.isSome_iff_ne_none]
      exact selected
    have foreign := List.all_eq_true.mp unselected key listed
    rw [kept] at foreign
    cases foreign
  · intro entry candidate stored same
    have foreign := List.all_eq_true.mp unheard candidate
      (AssocMap.mem_values_iff.mpr ⟨entry, stored⟩)
    rw [same, kept] at foreign
    cases foreign

/-- Handling an event keeps the key uncontested and speaks for it with the
numbers the host was told. -/
theorem Dispatched.owns (valid : event.validate = .ok ())
    (dispatched : Dispatched event s actions t) (uncontested : Uncontested s key metric s)
    (spares : ∀ neighbour tlvs, event.received = some (neighbour, tlvs) → ∀ tlv ∈ tlvs,
      Spares s neighbour key tlv) (own : t.originated.containsKey key = true) :
    ∃ (home : Engine P M) (last : UInt16), Uncontested home key last t ∧
      Speaks key (OwnVoice home key last) s.sequenceNumber actions := by
  have started : ∀ {start : Engine P M}, Reconfigures s start → Uncontested start key metric start := by
    intro start reconfigures
    refine ⟨rfl, rfl, uncontested.keyed.of_selected reconfigures.selected,
      uncontested.current.of_same reconfigures.originated reconfigures.sequenceNumber,
      reconfigures.originated ▸ uncontested.own, reconfigures.selected ▸ uncontested.unselected, ?_⟩
    intro entry candidate found
    obtain ⟨old, stored, faded⟩ := reconfigures.fades entry candidate found
    rw [faded.key]
    exact uncontested.unheard entry old stored
  cases dispatched with
  | packet neighbour tlvs received phase =>
    obtain ⟨after, voices⟩ :=
      phase.fold_moves (owns_chains s key metric) (owns_moves spares) received uncontested
    exact ⟨s, metric, after, voices.speaks⟩
  | edited editing phase =>
    obtain @⟨middle, chosen, _, first, second, third, prelude, reselects, concludes⟩ := phase
    have coda := conclusions_outputs concludes
    obtain ⟨keyed, current, unselected, unheard⟩ := prelude.fold (keeps_chains (Clear key))
      (fun edit => edit.clear valid) ⟨uncontested.keyed, uncontested.current,
        uncontested.unselected, uncontested.unheard⟩
    obtain ⟨number, silent⟩ := prelude.fold numbered_chains Edit.numbered
    -- Neither reselection nor the conclusion touches the origins.
    have origins : t.originated = middle.originated :=
      (outputs_sameRoutes coda).originated.trans reselects.tables.originated
    obtain ⟨origin, found⟩ := OrdMap.containsKey_iff.mp own
    have prepared : Uncontested middle key origin.metric middle :=
      ⟨rfl, rfl, keyed, current, by rw [← origins, found]; rfl, unselected, unheard⟩
    have chains := owns_chains middle key origin.metric
    obtain ⟨after, voices⟩ := chains.trans reselects.owns (coda.fold chains fun move => move.coda.owns) prepared
    refine ⟨middle, origin.metric, after, ?_⟩
    rw [List.append_assoc, speaks_append]
    refine ⟨speaks_of_silent fun action member sent inside => ?_, number ▸ voices.speaks⟩
    have listed : sent ∈ sentUpdates first := mem_sentUpdates.mpr ⟨action, member, inside⟩
    rw [silent] at listed
    cases listed
  | phase start plain change phase =>
    have moves : Moves event (Owns start key metric) := owns_moves (by simp [plain.1])
    obtain ⟨after, voices⟩ := phase.fold (owns_chains start key metric) moves.prelude
      moves.reselects moves.output (started change.reconfigures)
    exact ⟨start, metric, after, change.reconfigures.sequenceNumber ▸ voices.speaks⟩
  | phases start policy change phases =>
    have plain : event.received = none := by
      cases event with
      | interfacePolicyChanged _ _ _ _ => rfl
      | _ => cases policy
    have moves : Moves event (Owns start key metric) := owns_moves (by simp [plain])
    obtain ⟨after, voices⟩ := phases.fold (owns_chains start key metric)
      (fun phase => phase.fold (owns_chains start key metric) moves.prelude moves.reselects
        moves.output) (started change.reconfigures)
    exact ⟨start, metric, after, change.reconfigures.sequenceNumber ▸ voices.speaks⟩

omit [NeighborMetric M] [MetricProfile P M] in
theorem setOrigins_owned (order : HashOrder) (origins : OrdMap RouteKey UInt16)
    (removed : List RouteKey) (worse : Bool) (s : Engine P M)
    (absent : ∀ other ∈ removed, origins.containsKey other = false) :
    (setOrigins order origins removed worse now s).1.originated.containsKey key =
      origins.containsKey key := by
  have coda : Steps (Conclusion false now) (reselect order now (installOrigins origins worse s).1).1 _ _ :=
    concludeOrigins_coda removed _ fun other listed =>
      installOrigins_absent origins worse s (absent other listed)
  have origin : (setOrigins order origins removed worse now s).1.originated =
      (installOrigins origins worse s).1.originated :=
    (outputs_sameRoutes (conclusions_outputs coda)).originated.trans
      (reselect_tables order now _).originated
  rw [origin]
  exact installOrigins_owned origins worse s key

/-- An origin that an event leaves in place is one the event keeps. -/
theorem keepsOrigin_of_kept (order : HashOrder) (event : Event P) (s : Engine P M)
    (before : s.originated.containsKey key = true)
    (after : (handleValidated order event s).1.originated.containsKey key = true) :
    s.keepsOrigin event key = true := by
  refine Bool.and_eq_true_iff.mpr ⟨before, ?_⟩
  cases event with
  | originate origin metric now => simp [originsAfter, before]
  | withdraw origin now =>
    obtain ⟨_, _, coda⟩ := removeOrigin_coda order origin (s.originated.containsKey origin) now s
    have apart : key ≠ origin := by
      rintro rfl
      have removed : (reselect order now
          { s with originated := s.originated.remove key }).1.originated.get? key = none :=
        reselect_unoriginated (by rw [OrdMap.get?_remove, if_pos rfl])
      rw [← (outputs_sameRoutes (conclusions_outputs coda)).originated,
        ← OrdMap.containsKey_eq_false] at removed
      exact absurd (after.symm.trans removed) (by decide)
    simp [originsAfter, before, apart]
  | replaceOrigins origins now =>
    by_cases unchanged : s.originsUnchanged origins = true
    · obtain ⟨size, listed⟩ := Bool.and_eq_true_iff.mp unchanged
      refine OrdMap.containsKey_of_len (beq_iff_eq.mp size) (fun other inside => ?_) before
      obtain ⟨metric, found⟩ := OrdMap.containsKey_iff.mp inside
      have here := List.all_eq_true.mp listed (other, metric) (OrdMap.get?_eq_some_iff.mp found)
      obtain ⟨origin, present, _⟩ := (Option.any_eq_true _ _).mp here
      exact OrdMap.containsKey_iff.mpr ⟨origin, present⟩
    · simp only [handleValidated, replaceOrigins, if_neg unchanged] at after
      rwa [setOrigins_owned] at after
      intro other listed
      simpa using (List.mem_filter.mp listed).2
  | _ => exact before

/-- In a run where no kept origin is contested, every Update of a kept origin's
key carries the node's router-id and either the origin's metric with the number
the host was last told, or infinity for want of a next hop or of permission. -/
theorem origin_owns_its_key {history : List (Event P × List Action)} {before after : Engine P M}
    {event : Event P} {actions : List Action} (run : RunOf originsUncontested history before)
    (step : Step originsUncontested before event actions after) {old new : Originated}
    (held : before.originated.get? key = some old) (kept : after.originated.get? key = some new)
    {earlier later : List Action} {action : Action} (split : actions = earlier ++ action :: later)
    {sent : SentUpdate} (member : sent ∈ action.sent) (named : sent.update.key = some key) :
    sent.update.routerId = some after.config.routerId ∧
      (sent.update.seqno = seqnoAfter old.seqno earlier ∧ sent.update.metric = new.metric ∧
          new.metric ≠ INFINITY ∨
        sent.update.metric = INFINITY ∧ (after.unavailable sent.interface key = true ∨
          after.denied sent.interface key after.config.routerId = true)) := by
  obtain ⟨allowed, order, handled⟩ := step
  obtain ⟨valid, rfl, rfl⟩ := tryHandle_ok handled
  have present : before.originated.containsKey key = true := OrdMap.containsKey_iff.mpr ⟨old, held⟩
  have own : (handleValidated order event before).1.originated.containsKey key = true :=
    OrdMap.containsKey_iff.mpr ⟨new, kept⟩
  have keeps := keepsOrigin_of_kept order event before present own
  obtain ⟨metric, uncontested⟩ :=
    originsUncontested_start allowed keeps run.keyed run.originsCurrent
  obtain ⟨home, last, finished, speaks⟩ := (handleValidated_dispatched order event before).owns valid
    uncontested (fun _ _ received => originsUncontested_spares allowed keeps received) own
  have lastMetric : new.metric = last := by
    have own := finished.own
    rw [show (handleValidated order event before).1.originated.get? key = some new from kept] at own
    exact Option.some.inj own
  have finite : new.metric ≠ INFINITY := (finished.current key new kept).2
  rw [split] at speaks
  have voice : sent.update = home.advertisement sent.interface key home.config.routerId
      (seqnoAfter before.sequenceNumber earlier) last := speaks.at member named
  rw [← advertisement_congr finished.config finished.links, ← finished.config, ← lastMetric,
    ← (run.originsCurrent key old held).1] at voice
  rw [voice]
  refine ⟨rfl, ?_⟩
  by_cases infinite : ((handleValidated order event before).1.advertisement sent.interface key
      (handleValidated order event before).1.config.routerId (seqnoAfter old.seqno earlier)
      new.metric).metric = INFINITY
  · refine Or.inr ⟨infinite, ?_⟩
    rw [advertisement_metric] at infinite
    split_ifs at infinite with reason
    · rcases Bool.or_eq_true_iff.mp reason with unreachable | forbidden
      · exact Or.inl unreachable
      · exact Or.inr (Bool.and_eq_true_iff.mp forbidden).2
    · exact absurd infinite finite
  · exact Or.inl ⟨rfl, advertisement_metric_of_finite infinite, finite⟩

end Events

end Moves

section Concrete
open Conformance

/-- Asked for a newer number, the node bumps its own and answers with it. -/
theorem origin_answers_with_bumped_number :
    ∃ (after : Harness) (actions : List Action) (sent : SentUpdate),
      sent ∈ sentUpdates actions ∧ sent.update.key = some destination ∧
        after.originated.containsKey destination = true ∧
        sent.update.routerId = some after.config.routerId := by
  obtain ⟨history, before, after, actions, run, step, present, own, sent, member, named⟩ :=
    step_of_checked_play originsUncontested (harness (nodeId 0))
    [.interfaceUp (link 1) [] 0,
      .originate destination 0 0,
      packet (link 1) (address 2) (greeting 96) 1]
    (packet (link 1) (address 2) [.seqnoRequest destination 8 64 (nodeId 0) []] 2)
    (fun (before : Harness) actions after =>
      before.originated.containsKey destination = true ∧
        after.originated.containsKey destination = true ∧
        ∃ sent ∈ sentUpdates actions, sent.update.key = some destination)
    rfl (by decide +kernel)
  obtain ⟨old, held⟩ := OrdMap.containsKey_iff.mp present
  obtain ⟨new, kept⟩ := OrdMap.containsKey_iff.mp own
  obtain ⟨action, listed, inside⟩ := mem_sentUpdates.mp member
  obtain ⟨earlier, later, split⟩ := List.append_of_mem listed
  exact ⟨after, actions, sent, member, named, own,
    (origin_owns_its_key run step held kept split inside named).1⟩

/-- A neighbour announces the key the node originates: the learned route is
selected and advertised under the neighbour's router-id, and once the neighbour
retracts it the node retracts its own origin. -/
theorem learned_route_speaks_for_own_origin :
    (∃ (history : List (Event BuiltinProfile × List Action)) (before after : Harness)
        (event : Event BuiltinProfile) (actions : List Action),
      RunOf anyEvent history before ∧ Step anyEvent before event actions after ∧
        before.originated.containsKey destination = true ∧
        after.originated.containsKey destination = true ∧
        ∃ sent ∈ sentUpdates actions, sent.update.key = some destination ∧
          sent.update.routerId ≠ some after.config.routerId) ∧
      ∃ (history : List (Event BuiltinProfile × List Action)) (before after : Harness)
        (event : Event BuiltinProfile) (actions : List Action),
      RunOf anyEvent history before ∧ Step anyEvent before event actions after ∧
        before.originated.containsKey destination = true ∧
        after.originated.containsKey destination = true ∧
        ∃ sent ∈ sentUpdates actions, sent.update.key = some destination ∧
          sent.update.metric = INFINITY ∧ after.unavailable sent.interface destination = false ∧
          after.denied sent.interface destination after.config.routerId = false := by
  have learned := step_of_checked_play anyEvent (harness (nodeId 0))
    [.interfaceUp (link 1) [] 0,
      .interfaceUp (link 2) [] 0,
      .originate destination 0 0,
      packet (link 1) (address 2) (greeting 96) 1]
    (packet (link 1) (address 2) [routeUpdate destination (address 2) (nodeId 1) 100 0] 2)
    (fun (before : Harness) actions after =>
      before.originated.containsKey destination = true ∧
        after.originated.containsKey destination = true ∧
        ∃ sent ∈ sentUpdates actions, sent.update.key = some destination ∧
          sent.update.routerId ≠ some after.config.routerId)
    rfl (by decide +kernel)
  have lost := step_of_checked_play anyEvent (harness (nodeId 0))
    [.interfaceUp (link 1) [] 0,
      .interfaceUp (link 2) [] 0,
      .originate destination 0 0,
      packet (link 1) (address 2) (greeting 96) 1,
      packet (link 1) (address 2) [routeUpdate destination (address 2) (nodeId 1) 100 0] 2]
    (packet (link 1) (address 2) [routeUpdate destination (address 2) (nodeId 1) 100 INFINITY] 3)
    (fun (before : Harness) actions after =>
      before.originated.containsKey destination = true ∧
        after.originated.containsKey destination = true ∧
        ∃ sent ∈ sentUpdates actions, sent.update.key = some destination ∧
          sent.update.metric = INFINITY ∧ after.unavailable sent.interface destination = false ∧
          after.denied sent.interface destination after.config.routerId = false)
    rfl (by decide +kernel)
  obtain ⟨history, before, after, actions, run, step, checked⟩ := learned
  obtain ⟨history', before', after', actions', run', step', checked'⟩ := lost
  exact ⟨⟨history, before, after, _, actions, run, step, checked⟩,
    history', before', after', _, actions', run', step', checked'⟩

end Concrete

end Engine

end BabelRs
