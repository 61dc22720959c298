import BabelRs.Lib.Tracked
import BabelRs.Safety.Ownership

/-!
# The node's own distance

A neighbour remembers the best distance a node told for a key, so the node must not
tell a worse one under the same sequence number.  The engine compares a new metric
with the origin it has stored.  What it told before a withdrawal is not stored
anywhere, and an origin that comes back worse keeps the number.
-/

set_option autoImplicit false

namespace BabelRs

open Lib Lib.Effect

/-! ## What is heard about a key -/

/-- What the node says about one key of its own. -/
inductive OwnWord where
  | renumbered
  | told (seqno metric : UInt16)
deriving DecidableEq

/-- A finite Update of the key under the node's own router-id. -/
def SentUpdate.word (own : RouterId) (key : RouteKey) (sent : SentUpdate) : Option OwnWord :=
  if sent.update.key = some key ∧ sent.update.routerId = some own ∧ sent.update.metric ≠ INFINITY then
    some (.told sent.update.seqno sent.update.metric)
  else none

def Action.words (own : RouterId) (key : RouteKey) : Action → List OwnWord
  | .sequenceNumberChanged _ => [.renumbered]
  | action => action.sent.filterMap (SentUpdate.word own key)

def ownWords (own : RouterId) (key : RouteKey) (actions : List Action) : List OwnWord :=
  actions.flatMap (Action.words own key)

/-- What a listener knows: the number, and the metric last told under it. -/
structure OwnMemory where
  number : UInt16
  floor : Option UInt16

def OwnMemory.hear (memory : OwnMemory) : OwnWord → OwnMemory
  | .renumbered => ⟨memory.number + 1, none⟩
  | .told _ metric => ⟨memory.number, some metric⟩

/-- An Update has the known number and no worse metric than the last one. -/
def OwnMemory.Fits (memory : OwnMemory) : OwnWord → Prop
  | .renumbered => True
  | .told seqno metric =>
    seqno = memory.number ∧ ∀ floor, memory.floor = some floor → metric ≤ floor

variable {memory : OwnMemory}

section Words
variable {own : RouterId} {key : RouteKey}

@[simp] theorem ownWords_nil : ownWords own key [] = [] := rfl

@[simp] theorem ownWords_append (first second : List Action) :
    ownWords own key (first ++ second) = ownWords own key first ++ ownWords own key second := by
  simp [ownWords]

/-- Without a new number, every word is an Update. -/
theorem mem_ownWords {actions : List Action} {word : OwnWord}
    (constant : ∀ action ∈ actions, ∀ number, action ≠ .sequenceNumberChanged number)
    (member : word ∈ ownWords own key actions) :
    ∃ sent ∈ sentUpdates actions, sent.word own key = some word := by
  obtain ⟨action, listed, inside⟩ := List.mem_flatMap.mp member
  have spoken : ∃ sent ∈ action.sent, sent.word own key = some word := by
    cases action with
    | sequenceNumberChanged number => exact absurd rfl (constant _ listed number)
    | _ => exact List.mem_filterMap.mp inside
  obtain ⟨sent, sentHere, same⟩ := spoken
  exact ⟨sent, mem_sentUpdates.mpr ⟨action, listed, sentHere⟩, same⟩

theorem not_renumbered_of_send {action : Action} (isSend : action.isSend = true) (number : UInt16) :
    action ≠ .sequenceNumberChanged number := by
  rintro rfl
  cases isSend

/-- Along words that fit, a later Update carries as many more numbers as were
announced in between, and without one its metric is no worse. -/
theorem later_told {middle back : List OwnWord} {seqno metric : UInt16}
    (tracked : Tracked OwnMemory.hear OwnMemory.Fits memory (middle ++ .told seqno metric :: back)) :
    seqno = memory.number + UInt16.ofNat (middle.count .renumbered) ∧
      (middle.count .renumbered = 0 → ∀ floor, memory.floor = some floor → metric ≤ floor) := by
  induction middle generalizing memory with
  | nil =>
    obtain ⟨number, better⟩ := tracked.1
    exact ⟨by simpa using number, fun _ => better⟩
  | cons word rest ih =>
    obtain ⟨here, later⟩ := tracked
    obtain ⟨number, better⟩ := ih later
    cases word with
    | renumbered =>
      refine ⟨?_, fun none => by simp at none⟩
      rw [number, List.count_cons_self, UInt16.ofNat_add, OwnMemory.hear, UInt16.add_assoc,
        UInt16.add_comm 1]
      rfl
    | told earlierSeqno earlier =>
      refine ⟨number, fun none floor known => ?_⟩
      exact UInt16.le_trans (better none earlier rfl) (here.2 floor known)

theorem seqnoGt_add {number : UInt16} {count : Nat} (some : 0 < count) (few : count < 2 ^ 15) :
    seqnoGt (number + UInt16.ofNat count) number = true := by
  have delta : number + UInt16.ofNat count - number = UInt16.ofNat count := by
    rw [UInt16.add_comm, UInt16.add_sub_cancel]
  have value : (UInt16.ofNat count).toNat = count := by
    rw [UInt16.toNat_ofNat', Nat.mod_eq_of_lt (by omega)]
  simp only [seqnoGt, delta, Bool.and_eq_true, bne_iff_ne, decide_eq_true_eq]
  refine ⟨fun zero => ?_, ?_⟩
  · rw [zero] at value
    simp at value
    omega
  · rw [UInt16.lt_iff_toNat_lt, value]
    exact few

/-- Two Updates among words that fit, with few enough new numbers in between. -/
theorem told_in_order {front middle back : List OwnWord}
    {earlierSeqno earlier laterSeqno later : UInt16}
    (tracked : Tracked OwnMemory.hear OwnMemory.Fits memory
      (front ++ .told earlierSeqno earlier :: (middle ++ .told laterSeqno later :: back)))
    (few : middle.count .renumbered < 2 ^ 15) :
    seqnoGt laterSeqno earlierSeqno = true ∨ laterSeqno = earlierSeqno ∧ later ≤ earlier := by
  obtain ⟨⟨spoken, _⟩, rest⟩ := (tracked_append.mp tracked).2
  obtain ⟨number, better⟩ := later_told rest
  rw [OwnMemory.hear, ← spoken] at number
  rcases Nat.eq_zero_or_pos (middle.count .renumbered) with none | some
  · right
    exact ⟨by simpa [none] using number, better none earlier rfl⟩
  · left
    rw [number]
    exact seqnoGt_add some few

end Words

variable (order : HashOrder) (other : RouteKey)

namespace Engine

variable {P M : Type} {now : UInt64} {own : RouterId} {key : RouteKey}
variable {s t : Engine P M} {actions : List Action} {event : Event P}

/-! ## What the state has to do with it -/

/-- The node's own router-id is on its origins only. -/
structure Grounded (own : RouterId) (s : Engine P M) : Prop where
  named : s.config.routerId = own
  keyed : SelectedKeyed s
  current : OriginsCurrent s
  stored : ∀ entry candidate, s.candidates.get? entry = some candidate → candidate.routerId ≠ own
  chosen : ∀ other route, s.selected.get? other = some route → route.routerId ≠ own

/-- A listener's memory of the key is no worse than the origin stored for it. -/
structure Recalls (key : RouteKey) (memory : OwnMemory) (s : Engine P M) : Prop where
  number : s.sequenceNumber = memory.number
  floored : ∀ origin floor, s.originated.get? key = some origin → memory.floor = some floor →
    origin.metric ≤ floor

/-- The words of a move fit what the listener remembers, and the memory stays true. -/
def Recounted (own : RouterId) (key : RouteKey) (memory : OwnMemory) (s : Engine P M)
    (actions : List Action) (t : Engine P M) : Prop :=
  Recalls key memory s → Tracked OwnMemory.hear OwnMemory.Fits memory (ownWords own key actions) ∧
    Recalls key ((ownWords own key actions).foldl OwnMemory.hear memory) t

def Recounts (own : RouterId) (key : RouteKey) (s : Engine P M) (actions : List Action)
    (t : Engine P M) : Prop :=
  ∀ memory, Recounted own key memory s actions t

theorem Recounted.andThen {middle : Engine P M} {first second : List Action}
    (left : Recounted own key memory s first middle) (right : Recounts own key middle second t) :
    Recounted own key memory s (first ++ second) t := by
  intro recalls
  obtain ⟨fitsFirst, between⟩ := left recalls
  obtain ⟨fitsSecond, after⟩ := right _ between
  rw [ownWords_append, tracked_append, List.foldl_append]
  exact ⟨⟨fitsFirst, fitsSecond⟩, after⟩

theorem recounts_chains (own : RouterId) (key : RouteKey) :
    Chains (Recounts (P := P) (M := M) own key) where
  refl := fun _ _ recalls => ⟨trivial, recalls⟩
  trans := fun left right memory => (left memory).andThen right

def Heeds (own : RouterId) (key : RouteKey) :
    Engine P M → List Action → Engine P M → Prop :=
  Effect.Guarded (Grounded own) (Recounts own key)

theorem heeds_chains (own : RouterId) (key : RouteKey) :
    Chains (Heeds (P := P) (M := M) own key) :=
  guarded_chains _ (recounts_chains own key)

theorem Recalls.of_same (recalls : Recalls key memory s) (originated : t.originated = s.originated)
    (number : t.sequenceNumber = s.sequenceNumber) :
    Recalls key memory t :=
  ⟨number.trans recalls.number, originated ▸ recalls.floored⟩

/-- Words that repeat the stored origin fit, however many there are. -/
theorem recalls_repeated (current : OriginsCurrent s) {words : List OwnWord}
    (each : ∀ word ∈ words, ∃ origin, s.originated.get? key = some origin ∧
      word = .told origin.seqno origin.metric) (recalls : Recalls key memory s) :
    Tracked OwnMemory.hear OwnMemory.Fits memory words ∧
      Recalls key (words.foldl OwnMemory.hear memory) s := by
  induction words generalizing memory with
  | nil => exact ⟨trivial, recalls⟩
  | cons word rest ih =>
    obtain ⟨origin, found, rfl⟩ := each _ List.mem_cons_self
    have heard : Recalls key (memory.hear (.told origin.seqno origin.metric)) s := by
      refine ⟨recalls.number, fun other floor stored known => ?_⟩
      obtain rfl := Option.some.inj (found.symm.trans stored)
      obtain rfl := Option.some.inj known
      exact UInt16.le_refl _
    obtain ⟨fits, after⟩ := ih (fun other member => each other (List.mem_cons_of_mem _ member)) heard
    refine ⟨⟨⟨(current _ _ found).1.trans recalls.number, ?_⟩, fits⟩, after⟩
    exact fun floor known => recalls.floored origin floor found known

theorem recounts_of_told (current : OriginsCurrent s) (originated : t.originated = s.originated)
    (number : t.sequenceNumber = s.sequenceNumber)
    (each : ∀ word ∈ ownWords own key actions, ∃ origin, s.originated.get? key = some origin ∧
      word = .told origin.seqno origin.metric) : Recounts own key s actions t := by
  intro memory recalls
  obtain ⟨fits, after⟩ := recalls_repeated current each recalls
  exact ⟨fits, after.of_same originated number⟩

theorem recounts_of_wordless (originated : t.originated = s.originated)
    (number : t.sequenceNumber = s.sequenceNumber) (silent : ownWords own key actions = []) :
    Recounts own key s actions t := by
  intro memory recalls
  rw [silent]
  exact ⟨trivial, recalls.of_same originated number⟩

/-- The only license to speak of a key under the own router-id is its origin. -/
theorem Grounded.told (grounded : Grounded own s) {gone : RouteKey → Prop} {sent : SentUpdate}
    (licensed : Licensed gone s sent) {word : OwnWord} (spoken : sent.word own key = some word) :
    ∃ origin, s.originated.get? key = some origin ∧ word = .told origin.seqno origin.metric := by
  rw [SentUpdate.word, Option.ite_none_right_eq_some] at spoken
  obtain ⟨⟨named, mine, finite⟩, same⟩ := spoken
  obtain rfl := Option.some.inj same
  cases licensed with
  | origin other entry found update =>
    rw [update] at named finite ⊢
    obtain rfl := Option.some.inj named
    refine ⟨entry, found, ?_⟩
    rw [advertisement_metric_of_finite finite, advertisement_seqno]
  | selected route found update =>
    rw [update] at mine
    exact absurd (Option.some.inj mine) (grounded.chosen _ _ found)
  | absent _ _ infinite _ _ => exact absurd infinite finite
  | lost _ _ infinite _ _ => exact absurd infinite finite

theorem Grounded.of_faded (grounded : Grounded own s)
    (routerId : t.config.routerId = s.config.routerId) (originated : t.originated = s.originated)
    (number : t.sequenceNumber = s.sequenceNumber) (selected : t.selected = s.selected)
    (fades : Fades s t) : Grounded own t where
  named := routerId.trans grounded.named
  keyed := grounded.keyed.of_selected selected
  current := grounded.current.of_same originated number
  stored := by
    intro entry candidate found
    obtain ⟨old, before, faded⟩ := fades entry candidate found
    rw [faded.routerId]
    exact grounded.stored entry old before
  chosen := selected ▸ grounded.chosen

theorem Grounded.of_sameRoutes (grounded : Grounded own s) (same : SameRoutes s t) :
    Grounded own t :=
  grounded.of_faded (by rw [same.config]) same.originated same.sequenceNumber same.selected
    (Fades.of_kept fun _ _ found => same.candidates ▸ found)

theorem Reconfigures.grounded (reconfigures : Reconfigures s t) (grounded : Grounded own s) :
    Grounded own t :=
  grounded.of_faded reconfigures.routerId reconfigures.originated reconfigures.sequenceNumber
    reconfigures.selected reconfigures.fades

/-! ## Moves -/

section Moves

theorem Senses.heeds (senses : Senses s t) : Heeds own key s [] t :=
  fun grounded => ⟨senses.toReconfigures.grounded grounded,
    recounts_of_wordless senses.originated senses.sequenceNumber rfl⟩

theorem Prelude.heeds [NeighborMetric M] [MetricProfile P M] (prelude : Prelude now s actions t) :
    Heeds own key s actions t := by
  cases prelude with
  | sensed silent => exact silent.senses.heeds
  | collected =>
    exact fun grounded => ⟨grounded.of_faded rfl rfl rfl rfl (Fades.of_kept fun _ _ found => found),
      recounts_of_wordless rfl rfl rfl⟩
  | invalidated => exact fun grounded => ⟨grounded, recounts_of_wordless rfl rfl rfl⟩

theorem Announces.heeds (announces : Announces nothingLost now s actions t) :
    Heeds own key s actions t := by
  intro grounded
  have same := announces.quiet.sameRoutes
  refine ⟨grounded.of_sameRoutes same, recounts_of_told grounded.current same.originated
    same.sequenceNumber fun word member => ?_⟩
  obtain ⟨sent, listed, spoken⟩ := mem_ownWords
    (fun action inside => not_renumbered_of_send (announces.sends action inside)) member
  exact grounded.told (announces.licensed grounded.keyed sent listed) spoken

theorem Output.heeds {ticks : Bool} (output : Output ticks now s actions t) :
    Heeds own key s actions t := by
  have coda := output.coda
  have kept := coda.sameRoutes
  cases coda with
  | announced announces => exact announces.heeds
  | reported => exact fun grounded => ⟨grounded.of_sameRoutes kept, recounts_of_wordless rfl rfl rfl⟩
  | held _ _ _ => exact fun grounded => ⟨grounded.of_sameRoutes kept, recounts_of_wordless rfl rfl rfl⟩
  | lifted _ _ => exact fun grounded => ⟨grounded.of_sameRoutes kept, recounts_of_wordless rfl rfl rfl⟩

theorem reselect_grounded (grounded : Grounded own s) :
    Grounded own (reselect order now s).1 := by
  have tables := reselect_tables order now s
  refine ⟨by rw [tables.config, grounded.named], reselect_keyed order now s,
    grounded.current.of_same tables.originated tables.sequenceNumber,
    tables.candidates ▸ grounded.stored, fun other route found => ?_⟩
  rw [reselect_selected] at found
  obtain ⟨candidate, listed, _, _, rfl⟩ := reselectState_chosen order now s found
  obtain ⟨entry, located⟩ := AssocMap.mem_values_iff.mp listed
  exact grounded.stored entry candidate located

theorem reselect_unnumbered (s : Engine P M) :
    ∀ action ∈ (reselect order now s).2, ∀ number, action ≠ .sequenceNumberChanged number := by
  intro action member number
  rcases reselect_cases order now s with ⟨silent, _, _⟩ | ⟨delta, actions, announces⟩
  · rw [silent] at member
    cases member
  · rw [actions] at member
    rcases List.mem_cons.mp member with rfl | later
    · simp
    · exact not_renumbered_of_send (announces.sends action later) number

theorem Reselects.heeds (reselects : Reselects now s actions t) : Heeds own key s actions t := by
  cases reselects with
  | skipped => exact (heeds_chains own key).refl s
  | taken order =>
    intro grounded
    have tables := reselect_tables order now s
    have after := (reselect_grounded order grounded : Grounded own (reselect order now s).1)
    refine ⟨after, recounts_of_told grounded.current tables.originated tables.sequenceNumber
      fun word member => ?_⟩
    obtain ⟨sent, listed, spoken⟩ := mem_ownWords (reselect_unnumbered order s) member
    rw [← tables.originated]
    exact after.told (reselect_licensed order now s sent listed) spoken

end Moves

/-! ### Route TLVs -/

section Packets
variable [NeighborMetric M]

theorem TlvEffect.grounded {neighbour : NeighborKey} {tlv : Tlv} {changed : Bool}
    (effect : TlvEffect neighbour now tlv s actions t changed) (grounded : Grounded own s) :
    Grounded own t where
  named := by rw [effect.receives.config, grounded.named]
  keyed := grounded.keyed.of_selected effect.receives.selected
  current := effect.originsCurrent grounded.current
  stored := by
    intro entry candidate found
    rcases effect.candidates found with
      ⟨old, before, faded⟩ | ⟨update, finite, extended, _, _, admitted, _, rfl⟩
    · rw [faded.routerId]
      exact grounded.stored entry old before
    · rw [← grounded.named]
      simp only [admissible, Bool.and_eq_true, bne_iff_ne] at admitted
      exact admitted.1.1.2
  chosen := effect.receives.selected ▸ grounded.chosen

omit [NeighborMetric M] in
theorem bump_recounts (s : Engine P M) (number : UInt16) :
    Recounts own key s [.sequenceNumberChanged number] s.bumpSequenceNumber := by
  intro memory recalls
  refine ⟨⟨trivial, trivial⟩, ?_, ?_⟩
  · show s.sequenceNumber + 1 = memory.number + 1
    rw [recalls.number]
  · intro origin floor _ known
    cases known

omit [NeighborMetric M] in
theorem Grounded.bump (grounded : Grounded own s) :
    Grounded own s.bumpSequenceNumber :=
  ⟨grounded.named, grounded.keyed, grounded.current.bump, grounded.stored, grounded.chosen⟩

theorem TlvEffect.heeds {neighbour : NeighborKey} {tlv : Tlv} {changed : Bool}
    (effect : TlvEffect neighbour now tlv s actions t changed) : Heeds own key s actions t := by
  intro grounded
  refine ⟨effect.grounded grounded, ?_⟩
  cases effect with
  | announced announces _ => exact (announces.heeds grounded).2
  | bumped other _ announces _ =>
    exact (recounts_chains own key).trans (bump_recounts s _) (announces.heeds grounded.bump).2
  | updated update isUpdate effect =>
    cases effect with
    | announced announces _ => exact (announces.heeds grounded).2
    | retractedAll _ _ => exact recounts_of_wordless rfl rfl rfl
    | retracted _ _ _ => exact recounts_of_wordless rfl rfl rfl
    | rejected finite _ =>
      simp only [rejectByPolicy]
      split
      · exact recounts_of_wordless rfl rfl rfl
      · exact recounts_of_wordless rfl rfl rfl
    | limited _ => exact recounts_of_wordless rfl rfl rfl
    | @stored finite state settled replies resolved admitted known _ feasible requests =>
      have quiet := requests_quiet requests
      refine recounts_of_told grounded.current quiet.originated quiet.sequenceNumber ?_
      intro word member
      rcases requests with ⟨announces, silent⟩ | ⟨_, answers⟩
      · obtain ⟨sent, listed, _⟩ := mem_ownWords
          (fun action inside => not_renumbered_of_send (announces.sends action inside)) member
        rw [silent] at listed
        cases listed
      · -- An answer carries the router-id of the admitted Update.
        obtain ⟨sent, listed, spoken⟩ := mem_ownWords
          (fun action inside => not_renumbered_of_send (answers.sends action inside)) member
        rw [SentUpdate.word, (answers.replies sent listed).2.2,
          Option.ite_none_right_eq_some] at spoken
        simp only [admissible, Bool.and_eq_true, bne_iff_ne, grounded.named] at admitted
        exact absurd (Option.some.inj spoken.1.2.1) admitted.1.1.2

variable [MetricProfile P M]

theorem heeds_moves (event : Event P) : Moves event (Heeds (P := P) (M := M) own key) where
  prelude := Prelude.heeds
  reselects := Reselects.heeds
  output := Output.heeds
  observation := by
    intro s t actions neighbour tlvs _ move
    obtain ⟨rfl, senses⟩ := move.senses
    exact senses.heeds
  tlv := by
    intro neighbour tlvs tlv _ _ order state
    obtain ⟨_, _, effect⟩ := receiveTlv_effect order neighbour event.now tlv state
    exact effect.heeds

end Packets

/-! ### Edited origins -/

def worsens (s : Engine P M) (origins : OrdMap RouteKey UInt16) : Bool :=
  s.originated.entries.any fun entry =>
    (origins.get? entry.1).any fun metric => decide (metric > entry.2.metric)

/-- The origins change, at a new number if `bumped`; at the old one the key's metric
must not exceed what was told. -/
theorem recounted_of_edit (bumped : Bool)
    (words : ownWords own key actions = if bumped then [.renumbered] else [])
    (number : t.sequenceNumber = if bumped then s.sequenceNumber + 1 else s.sequenceNumber)
    (kept : bumped = false → Recalls key memory s → ∀ origin floor,
      t.originated.get? key = some origin → memory.floor = some floor → origin.metric ≤ floor) :
    Recounted own key memory s actions t := by
  intro recalls
  rw [words]
  cases bumped with
  | true =>
    refine ⟨⟨trivial, trivial⟩, ?_, ?_⟩
    · rw [number, if_pos rfl, recalls.number]
      rfl
    · intro origin floor _ known
      cases known
  | false =>
    exact ⟨trivial, number.trans recalls.number, kept rfl recalls⟩

theorem bump_words (condition : Engine P M → Bool) (s : Engine P M) :
    ownWords own key (when condition announceBump s).2 =
      if condition s then [.renumbered] else [] := by
  unfold when
  split
  · rfl
  · rfl

theorem bump_number (condition : Engine P M → Bool) (s : Engine P M) :
    (when condition announceBump s).1.sequenceNumber =
      if condition s then s.sequenceNumber + 1 else s.sequenceNumber := by
  unfold when
  split
  · rfl
  · rfl

theorem liftHold_words (s : Engine P M) :
    ownWords own key (liftHold other s).2 = [] := by
  unfold liftHold when
  split
  · rfl
  · rfl

theorem liftHold_number (s : Engine P M) :
    (liftHold other s).1.sequenceNumber = s.sequenceNumber := by
  unfold liftHold when
  split
  · rfl
  · rfl

theorem installOrigin_recounted (metric : UInt16)
    (allowed : other = key → s.originated.get? key = none → ∀ floor, memory.floor = some floor →
      metric ≤ floor) :
    Recounted own key memory s (installOrigin other metric now s).2
      (installOrigin other metric now s).1 := by
  have lifted := liftHold_originated other s
  let worse : Engine P M → Bool := fun engine =>
    (engine.originated.get? other).any fun origin => decide (metric > origin.metric)
  let ready := repeatAdvertisement other now (liftHold other s).1
  have same : worse ready = worse s := by
    show ((liftHold other s).1.originated.get? other).any _ = _
    rw [lifted]
  apply recounted_of_edit (worse s)
  · show ownWords own key ((liftHold other s).2 ++ ([] ++
      ((when worse announceBump ready).2 ++ []))) = _
    rw [List.append_nil, List.nil_append, ownWords_append, liftHold_words, bump_words, same,
      List.nil_append]
  · show (when worse announceBump ready).1.sequenceNumber = _
    rw [bump_number, same]
    show (if _ then (liftHold other s).1.sequenceNumber + 1 else (liftHold other s).1.sequenceNumber) = _
    rw [liftHold_number]
  · intro noWorse recalls origin floor found known
    have settled : (when worse announceBump ready).1.originated = s.originated := by
      rw [when, same, noWorse]
      exact lifted
    change ((when worse announceBump ready).1.originated.insert other
      ⟨metric, _⟩).get? key = some origin at found
    rw [OrdMap.get?_insert, settled] at found
    split_ifs at found with here
    · obtain rfl := Option.some.inj found
      subst here
      cases before : s.originated.get? other with
      | none => exact allowed rfl before floor known
      | some old =>
        have bounded : metric ≤ old.metric := by simpa [worse, before] using noWorse
        exact UInt16.le_trans bounded (recalls.floored old floor before known)
    · exact recalls.floored origin floor found known

theorem installOrigins_recounted (origins : OrdMap RouteKey UInt16)
    (allowed : s.originated.get? key = none → s.worsens origins = false → ∀ metric floor,
      origins.get? key = some metric → memory.floor = some floor → metric ≤ floor) :
    Recounted own key memory s (installOrigins origins (s.worsens origins) s).2
      (installOrigins origins (s.worsens origins) s).1 := by
  apply recounted_of_edit (s.worsens origins)
  · show ownWords own key ((when (fun _ => s.worsens origins) announceBump s).2 ++ []) = _
    rw [List.append_nil, bump_words]
  · exact bump_number _ s
  · intro noWorse recalls origin floor found known
    change (origins.mapValues fun _ metric => (⟨metric, _⟩ : Originated)).get? key = some origin at found
    rw [OrdMap.get?_mapValues] at found
    obtain ⟨metric, listed, rfl⟩ := Option.map_eq_some_iff.mp found
    cases before : s.originated.get? key with
    | none => exact allowed before noWorse metric floor listed known
    | some old =>
      have entry := List.any_eq_false.mp noWorse (key, old) (OrdMap.get?_eq_some_iff.mp before)
      have bounded : metric ≤ old.metric := by simpa [listed] using entry
      exact UInt16.le_trans bounded (recalls.floored old floor before known)

theorem removeOrigin_recounted (memory : OwnMemory) (s : Engine P M) :
    Recounted own key memory s [] { s with originated := s.originated.remove other } := by
  refine recounted_of_edit false rfl rfl ?_
  intro _ recalls origin floor found known
  rw [OrdMap.get?_remove] at found
  split_ifs at found
  exact recalls.floored origin floor found known

theorem Edit.grounded {before : Engine P M} (valid : event.validate = .ok ())
    (edit : Edit before event s actions t) (grounded : Grounded own s) : Grounded own t where
  named := by
    cases edit with
    | scheduled _ => exact grounded.named
    | lifted _ => exact grounded.named
    | bumped => exact grounded.named
    | reoriginated _ _ _ => exact grounded.named
  keyed := grounded.keyed.of_selected edit.selected
  current := edit.originsCurrent valid grounded.current
  stored := by
    intro entry candidate found
    obtain ⟨old, stored, faded⟩ := edit.fades entry candidate found
    rw [faded.routerId]
    exact grounded.stored entry old stored
  chosen := edit.selected ▸ grounded.chosen

/-! ## Whole events -/

section Events
variable [NeighborMetric M] [MetricProfile P M]

/-- An event that originates the key anew does so with a metric no worse than the one
last told under the number, or raises the number. -/
def returnsNoWorse (key : RouteKey) (floor : Option UInt16) (s : Engine P M) (event : Event P) : Bool :=
  s.originated.containsKey key ||
    ((event.originMetric key).all fun metric => floor.all fun told => decide (metric ≤ told)) ||
    match event with
    | .replaceOrigins origins _ => s.worsens origins
    | _ => false

omit [NeighborMetric M] [MetricProfile P M] in
theorem edited_recounted {middle : Engine P M} {first rest : List Action}
    (valid : event.validate = .ok ()) (edits : Steps (Edit s event) s first middle)
    (recounted : Recounted own key memory s first middle)
    (coda : Steps (Conclusion false now) (reselect order now middle).1 rest t)
    (grounded : Grounded own s) :
    Recounted own key memory s (first ++ ((reselect order now middle).2 ++ rest)) t := by
  have ready : Grounded own middle :=
    edits.fold (keeps_chains (Grounded own)) (fun edit => edit.grounded valid) grounded
  have concluded : Heeds own key middle ((reselect order now middle).2 ++ rest) t :=
    (heeds_chains own key).trans (Reselects.taken order).heeds
      ((conclusions_outputs coda).fold (heeds_chains own key) Output.heeds)
  exact recounted.andThen (concluded ready).2

theorem Dispatched.recounted (dispatched : Dispatched event s actions t)
    (plain : event.editsOrigins = false) (grounded : Grounded own s) :
    Recounted own key memory s actions t := by
  have edits : event.editsOrigins = true → ∀ {u v : Engine P M} {outputs : List Action},
      Edit s event u outputs v → Heeds own key u outputs v := by
    intro editing
    rw [plain] at editing
    cases editing
  obtain ⟨start, change, heeds⟩ := dispatched.fold (heeds_chains own key) (heeds_moves event) edits
  have reconfigures := change.reconfigures
  intro recalls
  exact (heeds (reconfigures.grounded grounded)).2 memory
    (recalls.of_same reconfigures.originated reconfigures.sequenceNumber)

theorem handleValidated_recounted (valid : event.validate = .ok ())
    (allowed : returnsNoWorse key memory.floor s event = true) (grounded : Grounded own s) :
    Recounted own key memory s (handleValidated order event s).2
      (handleValidated order event s).1 := by
  have dispatched := handleValidated_dispatched order event s
  cases event with
  | originate other metric now =>
    simp only [handleValidated, originate]
    split
    · exact (recounts_chains own key).refl s memory
    · refine edited_recounted order valid (installOrigin_edit other metric s)
        (installOrigin_recounted other metric fun here absent floor known => ?_)
        (utterances_coda (setOrigin_utters order other metric s)) grounded
      simpa [returnsNoWorse, Event.originMetric, OrdMap.containsKey, absent, here, known]
        using allowed
  | withdraw other now =>
    obtain ⟨after, actions, coda⟩ :=
      removeOrigin_coda order other (s.originated.containsKey other) now s
    show Recounted own key memory s (removeOrigin order other _ now s).2 _
    rw [actions]
    exact edited_recounted order valid (.single (removeOrigin_edit other s))
      (removeOrigin_recounted other memory s) coda grounded
  | replaceOrigins origins now =>
    simp only [handleValidated, replaceOrigins]
    split
    · exact (recounts_chains own key).refl s memory
    · refine edited_recounted order valid (installOrigins_edit origins (s.worsens origins) s)
        (installOrigins_recounted origins fun absent noWorse metric floor listed known => ?_)
        (concludeOrigins_coda _ _ fun other member => installOrigins_absent origins _ s ?_) grounded
      · simpa [returnsNoWorse, Event.originMetric, OrdMap.containsKey, absent, listed, known,
          noWorse] using allowed
      · simpa using (List.mem_filter.mp member).2
  | _ => exact dispatched.recounted rfl grounded

theorem Moves.grounded (heeds : Moves event (Heeds (P := P) (M := M) own key)) (order : HashOrder)
    (valid : event.validate = .ok ()) (grounded : Grounded own s) :
    Grounded own (handleValidated order event s).1 := by
  have moves : Moves event fun (s : Engine P M) _ t => Grounded own s → Grounded own t :=
    { prelude := fun move grounded => (heeds.prelude move grounded).1
      reselects := fun move grounded => (heeds.reselects move grounded).1
      output := fun move grounded => (heeds.output move grounded).1
      observation := fun heard move grounded => (heeds.observation heard move grounded).1
      tlv := fun heard member order state grounded =>
        (heeds.tlv heard member order state grounded).1 }
  obtain ⟨start, change, kept⟩ := (handleValidated_dispatched order event s).fold
    (keeps_chains (Grounded own)) moves fun _ _ _ _ => Edit.grounded valid
  exact kept (change.reconfigures.grounded grounded)

/-! ## Runs -/

def ToldStep (key : RouteKey) (allowed : Option UInt16 → Engine P M → Event P → Bool)
    (state : Engine P M × OwnMemory) (event : Event P) (actions : List Action)
    (next : Engine P M × OwnMemory) : Prop :=
  Step (allowed state.2.floor) state.1 event actions next.1 ∧
    next.2 = (ownWords state.1.config.routerId key actions).foldl OwnMemory.hear state.2

def ToldRun (key : RouteKey) (allowed : Option UInt16 → Engine P M → Event P → Bool) :
    List (Event P × List Action) → Engine P M × OwnMemory → Prop :=
  Run (fun state => Starts state.1 ∧ state.2 = ⟨state.1.sequenceNumber, none⟩)
    (ToldStep key allowed)

/-- What a run establishes: the words so far fit, and the memory of them is true. -/
structure Recounting (key : RouteKey) (history : List (Event P × List Action))
    (state : Engine P M × OwnMemory) : Prop where
  grounded : Grounded state.1.config.routerId state.1
  recalls : Recalls key state.2 state.1
  tracked : ∃ first : UInt16, Tracked OwnMemory.hear OwnMemory.Fits ⟨first, none⟩
      (ownWords state.1.config.routerId key (history.flatMap Prod.snd)) ∧
    (ownWords state.1.config.routerId key (history.flatMap Prod.snd)).foldl OwnMemory.hear
      ⟨first, none⟩ = state.2

theorem ToldRun.recounting {history : List (Event P × List Action)} {state : Engine P M × OwnMemory}
    (run : ToldRun key (returnsNoWorse key) history state) : Recounting key history state := by
  refine run.invariant (Recounting key) ?_ ?_
  · rintro ⟨s, memory⟩ ⟨starts, blank⟩
    obtain ⟨config, _, rfl⟩ := starts.eq_initial
    obtain rfl : memory = ⟨config.sequenceNumber, none⟩ := blank
    refine ⟨⟨rfl, ?_, ?_, ?_, ?_⟩, ⟨rfl, ?_⟩, _, trivial, rfl⟩
    · intro other route found
      cases found
    · intro other origin found
      cases found
    · intro entry candidate found
      cases found
    · intro other route found
      cases found
    · intro origin floor found
      cases found
  · rintro history ⟨s, memory⟩ event actions ⟨t, later⟩ before ⟨⟨allowed, order, handled⟩, rfl⟩
    obtain ⟨valid, rfl, rfl⟩ := tryHandle_ok handled
    obtain ⟨first, fits, remembered⟩ := before.tracked
    have grounded := before.grounded
    obtain ⟨fitsHere, recalls⟩ :=
      handleValidated_recounted order valid allowed grounded before.recalls
    have after := (heeds_moves event : Moves event (Heeds _ key)).grounded order valid grounded
    have named : (noteLifetimes (handleValidated order event s)).config.routerId =
      s.config.routerId := after.named
    refine ⟨?_, ⟨recalls.number, recalls.floored⟩, first, ?_, ?_⟩
    · rw [named]
      exact ⟨after.named, after.keyed, after.current, after.stored, after.chosen⟩
    · rw [named]
      simp only [List.flatMap_append, List.flatMap_singleton, ownWords_append, tracked_append]
      exact ⟨fits, remembered ▸ fitsHere⟩
    · rw [named]
      simp only [List.flatMap_append, List.flatMap_singleton, ownWords_append, List.foldl_append]
      rw [remembered]

/-- Among the finite Updates of a key under the own router-id, with fewer than half the
sequence space of new numbers in between, the later one is newer or no worse. -/
theorem own_distance_never_worsens {history : List (Event P × List Action)}
    {state : Engine P M × OwnMemory} (run : ToldRun key (returnsNoWorse key) history state)
    {front middle back : List OwnWord} {earlierSeqno earlier laterSeqno later : UInt16}
    (heard : ownWords state.1.config.routerId key (history.flatMap Prod.snd) =
      front ++ .told earlierSeqno earlier :: (middle ++ .told laterSeqno later :: back))
    (few : middle.count .renumbered < 2 ^ 15) :
    seqnoGt laterSeqno earlierSeqno = true ∨ laterSeqno = earlierSeqno ∧ later ≤ earlier := by
  obtain ⟨first, fits, _⟩ := run.recounting.tracked
  rw [heard] at fits
  exact told_in_order fits few

/-- Origins that only ever come back with metric zero come back no worse. -/
theorem RunOf.told {history : List (Event P × List Action)}
    (run : RunOf (returnsNoWorse key (some 0)) history s) :
    ∃ memory, ToldRun key (returnsNoWorse key) history (s, memory) := by
  refine run.invariant (fun history s => ∃ memory, ToldRun key (returnsNoWorse key) history (s, memory))
    ?_ ?_
  · exact fun s starts => ⟨⟨s.sequenceNumber, none⟩, .start ⟨starts, rfl⟩⟩
  · rintro history s event actions t ⟨memory, before⟩ ⟨allowed, handled⟩
    refine ⟨_, .step before ⟨⟨?_, handled⟩, rfl⟩⟩
    simp only [returnsNoWorse, Bool.or_eq_true, Option.all_some] at allowed ⊢
    rcases allowed with (kept | zero) | raised
    · exact Or.inl (Or.inl kept)
    · refine Or.inl (Or.inr ?_)
      rw [Option.all_eq_true] at zero ⊢
      intro metric installs
      rw [Option.all_eq_true]
      intro told _
      have least := of_decide_eq_true (zero metric installs)
      exact decide_eq_true (UInt16.le_trans least (UInt16.zero_le))
    · exact Or.inr raised

end Events

end Engine

namespace Conformance

open Engine

/-- Announced at zero, made worse and withdrawn, the key comes back at zero: the
worse metric has a newer number than the first. -/
theorem own_distance_of_returning_origin :
    ∃ (history : List (Event BuiltinProfile × List Action)) (s : Harness),
      RunOf (returnsNoWorse destination (some 0)) history s ∧
        ownWords s.config.routerId destination (history.flatMap Prod.snd) =
          [.told 7 0, .renumbered, .told 8 10, .told 8 0] ∧
        (seqnoGt 8 7 = true ∨ (8 : UInt16) = 7 ∧ (10 : UInt16) ≤ 0) := by
  obtain ⟨history, s, run, checked⟩ := run_of_checked_play
    (returnsNoWorse destination (some 0)) (harness (nodeId 0))
    [.interfaceUp (link 1) [] 0,
      .originate destination 0 0,
      .originate destination 10 1,
      .withdraw destination 2,
      .originate destination 0 3]
    (fun history (s : Harness) =>
      ownWords s.config.routerId destination (history.flatMap Prod.snd) =
        [.told 7 0, .renumbered, .told 8 10, .told 8 0])
    rfl (by decide +kernel)
  have words := checked
  obtain ⟨memory, told⟩ := run.told
  have heard : ownWords s.config.routerId destination (history.flatMap Prod.snd) =
      [] ++ .told 7 0 :: ([.renumbered] ++ .told 8 10 :: [.told 8 0]) := words
  exact ⟨history, s, run, words, own_distance_never_worsens told heard (by decide)⟩

/-- Withdrawn and originated again with a worse metric, the key keeps its number. -/
theorem returning_origin_worsens_silently :
    ∃ (history : List (Event BuiltinProfile × List Action)) (s : Harness),
      RunOf anyEvent history s ∧
        ∃ (front middle back : List OwnWord) (earlierSeqno earlier laterSeqno later : UInt16),
          ownWords s.config.routerId destination (history.flatMap Prod.snd) =
            front ++ .told earlierSeqno earlier :: (middle ++ .told laterSeqno later :: back) ∧
          middle.count .renumbered < 2 ^ 15 ∧
          ¬ (seqnoGt laterSeqno earlierSeqno = true ∨ laterSeqno = earlierSeqno ∧ later ≤ earlier) := by
  obtain ⟨history, s, run, checked⟩ := run_of_checked_play anyEvent (harness (nodeId 0))
    [.interfaceUp (link 1) [] 0,
      .originate destination 10 0,
      .withdraw destination 1,
      .originate destination 20 2]
    (fun history (s : Harness) =>
      ownWords s.config.routerId destination (history.flatMap Prod.snd) =
        [.told 7 10, .told 7 20])
    rfl (by decide +kernel)
  exact ⟨history, s, run, [], [], [], 7, 10, 7, 20, checked, by decide, by decide⟩

end Conformance

end BabelRs
