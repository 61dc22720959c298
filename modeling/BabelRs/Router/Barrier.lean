import BabelRs.Router.Sender

/-!
# Invalidation is a barrier

Every socket poll that may transmit carries only TLVs submitted after the latest
completed invalidation, and what a reset or a generation check throws away was submitted
before it.  The generation is a 64-bit number that wraps: an intent that 2^64
invalidations have passed over is taken for a current one.
-/

set_option autoImplicit false

namespace BabelRs

open Lib Wire

/-! ## What an event does -/

namespace Sender

/-- The transitions, with what they require of the worker's phase. -/
inductive Taken (seed : UInt64) (sender : Sender) :
    SenderEvent → Sender → List SenderOutput → Prop
  | submit (intent : OutboundIntent OutboundTlv) (now : UInt64) (permitted : Bool) :
      Taken seed sender (.submit intent now permitted) (sender.submit intent now permitted) []
  | invalidate : Taken seed sender .invalidate sender.invalidate []
  | stop : Taken seed sender .stop { sender with phase := .stopped } []
  | borrow {fresh : Sender} {outputs : List SenderOutput} (phase : sender.phase = .top)
      (refreshed : sender.refresh seed = (fresh, outputs)) :
      Taken seed sender .borrow { fresh with phase := .settled } outputs
  | schedule (now : UInt64) (payloadBudget : Option Nat) (sendMs : UInt64) (timestamp : UInt32)
      (phase : sender.phase = .settled) :
      Taken seed sender (.schedule now payloadBudget sendMs timestamp)
        (sender.schedule now payloadBudget sendMs timestamp) []
  | noticed (unseen : sender.seen ≠ sender.invalidations)
      (idle : sender.phase = .backoff ∨ sender.phase = .waiting) :
      Taken seed sender .changed sender.noticed []
  | interrupted {datagram : SenderDatagram} {sendDeadline : UInt64}
      (unseen : sender.seen ≠ sender.invalidations)
      (phase : sender.phase = .sending datagram sendDeadline) :
      Taken seed sender .changed sender.noticed [.discarded datagram.reservations]
  | woken (idle : sender.phase = .backoff ∨ sender.phase = .waiting) :
      Taken seed sender .timer { sender with phase := .top } []
  | timedOut {datagram : SenderDatagram} {sendDeadline : UInt64}
      (phase : sender.phase = .sending datagram sendDeadline) :
      Taken seed sender .timer { sender with phase := .top } []
  | poll {datagram : SenderDatagram} {sendDeadline now : UInt64} {completes : Bool} {next : Sender}
      {outputs : List SenderOutput} (phase : sender.phase = .sending datagram sendDeadline)
      (polled : sender.poll datagram sendDeadline now completes = (next, outputs)) :
      Taken seed sender (.poll now completes) next outputs
  | receive {item : SenderItem} {channel : List SenderItem} (phase : sender.phase = .waiting)
      (queue : sender.channel = item :: channel) :
      Taken seed sender .receive { sender with channel, phase := .received item } []
  | admitItem {item : SenderItem} {now : UInt64} {next : Sender} {outputs : List SenderOutput}
      (phase : sender.phase = .received item)
      (admitted : sender.admitItem seed item now = (next, outputs)) :
      Taken seed sender (.admitItem now) next outputs

theorem step_taken {seed : UInt64} {sender next : Sender} {event : SenderEvent}
    {outputs : List SenderOutput} (taken : sender.step seed event = some (next, outputs)) :
    sender.Taken seed event next outputs := by
  unfold step at taken
  split at taken
  · cases taken
    exact .submit _ _ _
  · cases taken
    exact .invalidate
  · cases taken
    exact .stop
  · split at taken
    · next phase =>
        cases taken
        exact .borrow phase rfl
    · cases taken
  · split at taken
    · next phase =>
        cases taken
        exact .schedule _ _ _ _ phase
    · cases taken
  · split at taken
    · cases taken
    · next unseen =>
        split at taken
        · next phase =>
            cases taken
            exact .noticed unseen (.inl phase)
        · next phase =>
            cases taken
            exact .noticed unseen (.inr phase)
        · next phase =>
            cases taken
            exact .interrupted unseen phase
        · cases taken
  · split at taken
    · next phase =>
        cases taken
        exact .woken (.inl phase)
    · next phase =>
        cases taken
        exact .woken (.inr phase)
    · next phase =>
        cases taken
        exact .timedOut phase
    · cases taken
  · split at taken
    · next phase => exact .poll phase (Option.some.inj taken)
    · cases taken
  · split at taken
    · next phase queue =>
        cases taken
        exact .receive phase queue
    · cases taken
  · split at taken
    · next phase => exact .admitItem phase (Option.some.inj taken)
    · cases taken

end Sender

/-! ## Work of a kind -/

variable {now : UInt64}

section Kinds

variable {T R : Type} (ofTlv : T → Prop) (ofPermit : R → Prop)

structure PendingBatch.Of (batch : PendingBatch T R) : Prop where
  tlvs : ∀ tlv ∈ batch.tlvs, ofTlv tlv
  permits : ∀ permit ∈ batch.reservations, ofPermit permit

structure ReadyDatagram.Of (datagram : ReadyDatagram T R) : Prop where
  tlvs : ∀ tlv ∈ datagram.packet.tlvs, ofTlv tlv
  permits : ∀ permit ∈ datagram.reservations, ofPermit permit

structure OutputScheduler.Of (scheduler : OutputScheduler T R) : Prop where
  pending : ∀ batch ∈ scheduler.pending, batch.Of ofTlv ofPermit
  ready : ∀ datagram ∈ scheduler.ready, datagram.Of ofTlv ofPermit

variable {ofTlv ofPermit}

theorem ReadyDatagram.Of.imp {datagram : ReadyDatagram T R} {ofTlv' : T → Prop}
    {ofPermit' : R → Prop} (tlvs : ∀ tlv, ofTlv tlv → ofTlv' tlv)
    (permits : ∀ permit, ofPermit permit → ofPermit' permit)
    (known : datagram.Of ofTlv ofPermit) : datagram.Of ofTlv' ofPermit' :=
  ⟨fun tlv member => tlvs tlv (known.tlvs tlv member),
    fun permit member => permits permit (known.permits permit member)⟩

namespace OutputScheduler.Of

variable {scheduler : OutputScheduler T R}

theorem imp {ofTlv' : T → Prop} {ofPermit' : R → Prop} (tlvs : ∀ tlv, ofTlv tlv → ofTlv' tlv)
    (permits : ∀ permit, ofPermit permit → ofPermit' permit)
    (known : scheduler.Of ofTlv ofPermit) : scheduler.Of ofTlv' ofPermit' where
  pending := fun batch member =>
    ⟨fun tlv inBatch => tlvs tlv ((known.pending batch member).tlvs tlv inBatch),
      fun permit inBatch => permits permit ((known.pending batch member).permits permit inBatch)⟩
  ready := fun datagram member => (known.ready datagram member).imp tlvs permits

theorem permits (known : scheduler.Of ofTlv ofPermit) {permit : R}
    (held : permit ∈ scheduler.permits) : ofPermit permit := by
  rcases List.mem_append.mp held with pending | ready
  · obtain ⟨batch, inPending, inBatch⟩ := List.mem_flatMap.mp pending
    exact (known.pending batch inPending).permits permit inBatch
  · obtain ⟨datagram, inReady, inDatagram⟩ := List.mem_flatMap.mp ready
    exact (known.ready datagram inReady).permits permit inDatagram

theorem new (seed : UInt64) : (OutputScheduler.new seed : OutputScheduler T R).Of ofTlv ofPermit :=
  ⟨by simp [OutputScheduler.new, withPacing], by simp [OutputScheduler.new, withPacing]⟩

theorem enqueue (known : scheduler.Of ofTlv ofPermit) {queued : QueuedIntent T R} (now : UInt64)
    (tlvs : ∀ tlv ∈ queued.intent.tlvs, ofTlv tlv) (permit : ofPermit queued.reservation) :
    (scheduler.enqueue queued now).Of ofTlv ofPermit := by
  refine ⟨fun batch member => ?_, known.ready⟩
  rcases PendingBatch.mem_enqueueIn member with inPending | rfl | ⟨earlier, inPending, -, rfl⟩
  · exact known.pending batch inPending
  · exact ⟨tlvs, by simpa using permit⟩
  · have old := known.pending earlier inPending
    refine ⟨fun tlv inBatch => ?_, fun other inBatch => ?_⟩
    · rcases List.mem_append.mp inBatch with before | after
      · exact old.tlvs tlv before
      · exact tlvs tlv after
    · rcases List.mem_append.mp inBatch with before | after
      · exact old.permits other before
      · rw [List.mem_singleton.mp after]
        exact permit

theorem expire (known : scheduler.Of ofTlv ofPermit) (now : UInt64) :
    (scheduler.expire now).1.Of ofTlv ofPermit :=
  ⟨fun batch member => known.pending batch (List.mem_of_mem_filter member),
    fun datagram member => known.ready datagram (List.mem_of_mem_filter member)⟩

variable (wire : T → OutboundTlv)

theorem packetizeDue (known : scheduler.Of ofTlv ofPermit) (now : UInt64) (payloadBudget : Nat) :
    (scheduler.packetizeDue wire now payloadBudget).1.Of ofTlv ofPermit where
  pending := fun batch member =>
    known.pending batch ((packetizeBatches_kept wire now payloadBudget _).subset member)
  ready := by
    intro datagram member
    rcases List.mem_append.mp member with waiting | fresh
    · exact known.ready datagram waiting
    · obtain ⟨batch, inPending, packet, inBatch, rfl⟩ := mem_packetized fresh
      have old := known.pending batch inPending
      exact ⟨fun tlv carried => old.tlvs tlv (inBatch carried), old.permits⟩

/-- What a pop leaves is of the kind, and so is what it gives. -/
theorem popDue (known : scheduler.Of ofTlv ofPermit) {payloadBudget : Nat}
    {after : OutputScheduler T R} {popped : Except WireError (Option (ReadyDatagram T R))}
    (pops : scheduler.popDue wire now payloadBudget = (after, popped)) :
    after.Of ofTlv ofPermit ∧ ∀ datagram, popped = .ok (some datagram) →
      datagram.Of ofTlv ofPermit := by
  have packetized := known.packetizeDue wire now payloadBudget
  rw [OutputScheduler.popDue] at pops
  split at pops
  · next failed failure result =>
      cases pops
      rw [result] at packetized
      exact ⟨packetized, fun datagram impossible => by cases impossible⟩
  · next packed result =>
      rw [result] at packetized
      simp only [popReady] at pops
      split at pops
      · cases pops
        exact ⟨packetized, fun datagram impossible => by cases impossible⟩
      · next datagram others taken =>
          split at pops
          · cases pops
            exact ⟨packetized, fun datagram impossible => by cases impossible⟩
          · cases pops
            obtain ⟨front, back, split, rest, -, -⟩ := takeEarliest_split taken
            have inReady : ∀ other, other ∈ datagram :: others → other ∈ packed.ready := by
              rw [split, rest]
              simp only [List.mem_cons, List.mem_append]
              tauto
            refine ⟨⟨packetized.pending,
              fun other member => packetized.ready other (inReady other (by simp [member]))⟩, ?_⟩
            intro given same
            cases same
            exact packetized.ready datagram (inReady datagram (by simp))

end OutputScheduler.Of

end Kinds

/-! ## The invariant -/

/-- A submission that a worker with this generation takes for a current one. -/
def Admits (current : UInt64) (seen : Nat) (intent : Submission) : Prop :=
  UInt64.ofNat intent.epoch = current ∧ intent.epoch ≤ seen

def Sourced.Admitted (current : UInt64) (seen : Nat) (tlv : Sourced) : Prop :=
  Admits current seen tlv.intent

/-- The generation of a queued intent is the one its epoch had. -/
structure QueuedIntent.Dated (item : SenderItem) (invalidations : Nat) : Prop where
  generation : item.generation = UInt64.ofNat item.reservation.epoch
  past : item.reservation.epoch ≤ invalidations
  tlvs : ∀ tlv ∈ item.intent.tlvs, tlv.intent = item.reservation

def SenderPhase.Sound (current : UInt64) (seen invalidations : Nat) : SenderPhase → Prop
  | .sending datagram _ => datagram.Of (Sourced.Admitted current seen) (Admits current seen)
  | .received item => item.Dated invalidations
  | _ => True

structure Sender.Sound (sender : Sender) : Prop where
  counted : sender.generation = UInt64.ofNat sender.invalidations
  seen : sender.seen ≤ sender.invalidations
  channel : ∀ item ∈ sender.channel, item.Dated sender.invalidations
  scheduler : sender.scheduler.Of (Sourced.Admitted sender.current sender.seen)
    (Admits sender.current sender.seen)
  phase : sender.phase.Sound sender.current sender.seen sender.invalidations

variable {item : SenderItem} {sendDeadline : UInt64} {completes : Bool}

namespace Sender

variable {sender next : Sender} {event : SenderEvent} {outputs : List SenderOutput}
  {datagram : SenderDatagram} {intent : Submission} {seed : UInt64}

theorem Sound.start (seed : UInt64) : (start seed).Sound where
  counted := rfl
  seen := le_refl _
  channel := by simp [Sender.start]
  scheduler := OutputScheduler.Of.new seed
  phase := trivial

theorem Dated.later {before after : Nat} (dated : item.Dated before) (le : before ≤ after) :
    item.Dated after :=
  ⟨dated.generation, dated.past.trans le, dated.tlvs⟩

theorem Sound.submit (sound : sender.Sound) (intent : OutboundIntent OutboundTlv) (now : UInt64)
    (permitted : Bool) :
    (sender.submit intent now permitted).Sound := by
  have fresh : (sender.queued intent now).Dated sender.invalidations :=
    ⟨sound.counted, le_refl _, by simp [queued]⟩
  refine ⟨sound.counted, sound.seen, fun item member => ?_, sound.scheduler, sound.phase⟩
  simp only [Sender.submit] at member
  split at member
  · rcases List.mem_append.mp member with old | new
    · exact sound.channel item old
    · rw [List.mem_singleton.mp new]
      exact fresh
  · exact sound.channel item member

theorem Sound.invalidate (sound : sender.Sound) : sender.invalidate.Sound where
  counted := by
    simp only [Sender.invalidate, sound.counted]
    exact (UInt64.ofNat_add _ _).symm
  seen := sound.seen.trans (Nat.le_succ _)
  channel := fun item member => Dated.later (sound.channel item member) (Nat.le_succ _)
  scheduler := sound.scheduler
  phase := by
    have before := sound.phase
    simp only [Sender.invalidate]
    cases held : sender.phase with
    | sending datagram sendDeadline =>
      rw [held] at before
      exact before
    | received item =>
      rw [held] at before
      exact Dated.later before (Nat.le_succ _)
    | top | settled | backoff | waiting | stopped => trivial

theorem Sound.atPhase (sound : sender.Sound) {phase : SenderPhase}
    (held : phase.Sound sender.current sender.seen sender.invalidations) :
    ({ sender with phase } : Sender).Sound :=
  ⟨sound.counted, sound.seen, sound.channel, sound.scheduler, held⟩

theorem Sound.withScheduler (sound : sender.Sound) {scheduler : SenderScheduler}
    (admitted : scheduler.Of (Sourced.Admitted sender.current sender.seen)
      (Admits sender.current sender.seen)) : ({ sender with scheduler } : Sender).Sound :=
  ⟨sound.counted, sound.seen, sound.channel, admitted, sound.phase⟩

/-- The worker reads the generation: what it keeps is current, what it throws away is not. -/
theorem Sound.refresh (seed : UInt64) (sound : sender.Sound)
    (refreshed : sender.refresh seed = (next, outputs)) :
    ({ next with phase := .top } : Sender).Sound ∧ next.current = next.generation ∧
      next.seen = next.invalidations ∧ next.invalidations = sender.invalidations ∧
      next.phase = sender.phase := by
  have counted : sender.generation = UInt64.ofNat sender.invalidations := sound.counted
  rw [Sender.refresh] at refreshed
  split at refreshed
  · next same =>
      cases refreshed
      refine ⟨⟨counted, le_refl _, sound.channel, ?_, trivial⟩, rfl, rfl, rfl, rfl⟩
      have widen : ∀ intent, Admits sender.current sender.seen intent →
          Admits sender.generation sender.invalidations intent :=
        fun intent known => ⟨known.1.trans same, known.2.trans sound.seen⟩
      exact sound.scheduler.imp (fun tlv => widen tlv.intent) widen
  · cases refreshed
    exact ⟨⟨counted, le_refl _, sound.channel, .new seed, trivial⟩, rfl, rfl, rfl, rfl⟩

theorem Sound.noticed (sound : sender.Sound) : sender.noticed.Sound := by
  have widen : ∀ intent, Admits sender.current sender.seen intent →
      Admits sender.current sender.invalidations intent :=
    fun intent known => ⟨known.1, known.2.trans sound.seen⟩
  exact ⟨sound.counted, le_refl _, sound.channel,
    sound.scheduler.imp (fun tlv => widen tlv.intent) widen, trivial⟩

theorem startSend_sound {current : UInt64} {seen : Nat}
    (admitted : datagram.Of (Sourced.Admitted current seen) (Admits current seen)) (sendMs : UInt64)
    (timestamp : UInt32) (invalidations : Nat) :
    (startSend datagram sendMs timestamp).Sound current seen invalidations := by
  rw [startSend]
  split
  · trivial
  · split
    · trivial
    · exact ⟨admitted.tlvs, admitted.permits⟩

theorem Sound.schedule (sound : sender.Sound) (now : UInt64) (payloadBudget : Option Nat)
    (sendMs : UInt64) (timestamp : UInt32) :
    (sender.schedule now payloadBudget sendMs timestamp).Sound := by
  have expired := sound.scheduler.expire now
  simp only [Sender.schedule]
  split
  · split
    · exact (sound.withScheduler expired).atPhase trivial
    · split
      · next pops => exact (sound.withScheduler (expired.popDue _ pops).1).atPhase trivial
      · next pops => exact (sound.withScheduler (expired.popDue _ pops).1).atPhase trivial
      · next pops =>
          obtain ⟨left, given⟩ := expired.popDue _ pops
          exact (sound.withScheduler left).atPhase
            (startSend_sound (given _ rfl) sendMs timestamp _)
  · exact (sound.withScheduler expired).atPhase trivial

theorem Sound.admitItem (sound : sender.Sound) (dated : item.Dated sender.invalidations)
    (admitted : sender.admitItem seed item now = (next, outputs)) : next.Sound := by
  rw [Sender.admitItem] at admitted
  cases refreshed : sender.refresh seed with
  | mk fresh reset =>
    obtain ⟨settled, current, seen, invalidations, -⟩ := sound.refresh seed refreshed
    simp only [refreshed] at admitted
    split at admitted
    · cases admitted
      exact settled
    · next matching =>
        split at admitted
        · cases admitted
          exact settled
        · cases admitted
          have epoch : Admits fresh.current fresh.seen item.reservation :=
            ⟨dated.generation.symm.trans (not_not.mp matching),
              by rw [seen, invalidations]; exact dated.past⟩
          refine settled.withScheduler (settled.scheduler.enqueue now (fun tlv member => ?_) epoch)
          rw [Sourced.Admitted, dated.tlvs tlv member]
          exact epoch

theorem Sound.poll (sound : sender.Sound)
    (polled : sender.poll datagram sendDeadline now completes = (next, outputs)) : next.Sound := by
  rw [Sender.poll] at polled
  split at polled
  · cases polled
    exact sound.atPhase trivial
  · split at polled
    · cases polled
      exact sound.atPhase trivial
    · split at polled
      · cases polled
        exact sound.atPhase trivial
      · cases polled
        exact sound

theorem Sound.step (sound : sender.Sound) (taken : sender.step seed event = some (next, outputs)) :
    next.Sound := by
  have held := sound.phase
  cases step_taken taken with
  | submit intent now permitted => exact sound.submit intent now permitted
  | invalidate => exact sound.invalidate
  | stop => exact sound.atPhase trivial
  | borrow phase refreshed => exact (sound.refresh seed refreshed).1.atPhase trivial
  | schedule now payloadBudget sendMs timestamp phase =>
    exact sound.schedule now payloadBudget sendMs timestamp
  | noticed unseen idle => exact sound.noticed
  | interrupted unseen phase => exact sound.noticed
  | woken idle => exact sound.atPhase trivial
  | timedOut phase => exact sound.atPhase trivial
  | poll phase polled => exact sound.poll polled
  | receive phase queue =>
    have inChannel := sound.channel
    rw [queue] at inChannel
    exact ⟨sound.counted, sound.seen, fun other member => inChannel other (by simp [member]),
      sound.scheduler, inChannel _ (by simp)⟩
  | admitItem phase admitted =>
    rw [phase] at held
    exact sound.admitItem held admitted

end Sender

/-! ## The barrier -/

theorem epoch_eq_or_wrapped {epoch invalidations : Nat} (past : epoch ≤ invalidations)
    (same : UInt64.ofNat epoch = UInt64.ofNat invalidations) :
    epoch = invalidations ∨ epoch + 2 ^ 64 ≤ invalidations := by
  have residues : epoch % 2 ^ 64 = invalidations % 2 ^ 64 := by
    simpa using congrArg UInt64.toNat same
  omega

namespace Sender

variable {sender next : Sender} {event : SenderEvent} {outputs : List SenderOutput}
  {datagram : SenderDatagram} {intent : Submission} {seed : UInt64}

/-- What a generation other than the current one admits is older than the last
invalidation. -/
theorem Sound.outdated (sound : sender.Sound) {current : UInt64}
    (admitted : Admits current sender.seen intent) (moved : current ≠ sender.generation) :
    intent.epoch < sender.invalidations := by
  refine lt_of_le_of_ne (admitted.2.trans sound.seen) fun same => moved ?_
  rw [sound.counted, ← same, admitted.1]

/-- What an output may say when so many invalidations are complete. -/
def Respects (invalidations : Nat) : SenderOutput → Prop
  | .polled datagram => ∀ tlv ∈ datagram.packet.tlvs,
      tlv.intent.epoch = invalidations ∨ tlv.intent.epoch + 2 ^ 64 ≤ invalidations
  | .discarded intents => ∀ intent ∈ intents, intent.epoch < invalidations

theorem Sound.refresh_respects (sound : sender.Sound)
    (refreshed : sender.refresh seed = (next, outputs)) :
    ∀ output ∈ outputs, Respects sender.invalidations output := by
  rw [Sender.refresh] at refreshed
  split at refreshed
  · cases refreshed
    simp
  · next moved =>
      cases refreshed
      simp only [List.mem_singleton, forall_eq]
      exact fun intent held => sound.outdated (sound.scheduler.permits held) moved

theorem Sound.poll_respects (sound : sender.Sound)
    (admitted : datagram.Of (Sourced.Admitted sender.current sender.seen)
      (Admits sender.current sender.seen))
    (polled : sender.poll datagram sendDeadline now completes = (next, outputs)) :
    ∀ output ∈ outputs, Respects sender.invalidations output := by
  rw [Sender.poll] at polled
  split at polled
  · next moved =>
      cases polled
      simp only [List.mem_singleton, forall_eq]
      exact fun intent member => sound.outdated (admitted.permits intent member) (Ne.symm moved)
  · next same =>
      have current : sender.current = UInt64.ofNat sender.invalidations :=
        (not_not.mp same).symm.trans sound.counted
      have fresh : Respects sender.invalidations (.polled datagram) := fun tlv member =>
        epoch_eq_or_wrapped ((admitted.tlvs tlv member).2.trans sound.seen)
          ((admitted.tlvs tlv member).1.trans current)
      split at polled
      · cases polled
        simp
      · split at polled <;> cases polled <;> simpa using fresh

theorem Sound.admitItem_respects (sound : sender.Sound) (dated : item.Dated sender.invalidations)
    (admitted : sender.admitItem seed item now = (next, outputs)) :
    ∀ output ∈ outputs, Respects sender.invalidations output := by
  rw [Sender.admitItem] at admitted
  cases refreshed : sender.refresh seed with
  | mk fresh reset =>
    obtain ⟨settled, current, seen, invalidations, -⟩ := sound.refresh seed refreshed
    have resets := sound.refresh_respects refreshed
    simp only [refreshed] at admitted
    split at admitted
    · next stale =>
        cases admitted
        have generation : fresh.current = UInt64.ofNat sender.invalidations := by
          rw [current, settled.counted, invalidations]
        intro output member
        rcases List.mem_append.mp member with before | last
        · exact resets output before
        · rw [List.mem_singleton.mp last]
          simp only [Respects, List.mem_singleton, forall_eq]
          refine lt_of_le_of_ne dated.past fun same => stale ?_
          rw [dated.generation, same, generation]
    · split at admitted <;> cases admitted <;> exact resets

theorem Sound.step_respects (sound : sender.Sound)
    (taken : sender.step seed event = some (next, outputs)) :
    ∀ output ∈ outputs, Respects sender.invalidations output := by
  have held := sound.phase
  cases step_taken taken with
  | borrow phase refreshed => exact sound.refresh_respects refreshed
  | interrupted unseen phase =>
    rw [phase] at held
    simp only [List.mem_singleton, forall_eq]
    exact fun intent member => lt_of_le_of_lt (held.permits intent member).2
      (lt_of_le_of_ne sound.seen unseen)
  | poll phase polled =>
    rw [phase] at held
    exact sound.poll_respects held polled
  | admitItem phase admitted =>
    rw [phase] at held
    exact sound.admitItem_respects held admitted
  | _ => simp

end Sender

variable {seed : UInt64} {history : List (SenderEvent × List SenderOutput)} {sender : Sender}

theorem SenderRun.sound (run : SenderRun seed history sender) : sender.Sound :=
  run.invariant (fun _ sender => sender.Sound) (fun _ begins => begins ▸ Sender.Sound.start seed)
    fun _ _ _ _ _ sound taken => sound.step taken

/-! ## How current work is lost -/

def SenderPhase.held : SenderPhase → List Submission
  | .sending datagram _ => datagram.reservations
  | .received item => [item.reservation]
  | _ => []

namespace Sender

variable {sender next : Sender} {event : SenderEvent} {outputs : List SenderOutput}
  {datagram : SenderDatagram} {intent : Submission} {seed : UInt64}

/-- The intents in the channel, in the scheduler and in the worker's hands. -/
def held (sender : Sender) : List Submission :=
  sender.channel.map QueuedIntent.reservation ++ sender.scheduler.permits ++ sender.phase.held

theorem mem_held :
    intent ∈ sender.held ↔ intent ∈ sender.channel.map QueuedIntent.reservation ∨
      intent ∈ sender.scheduler.permits ∨ intent ∈ sender.phase.held := by
  simp [held]

/-- The losses that are no business of the generation: expiry, a batch that fails to encode, a
datagram that expires or cannot be stamped after its pop, a send that times out or ends,
and the end of the worker. -/
def MayLose (sender : Sender) (intent : Submission) : SenderEvent → Prop
  | .schedule now payloadBudget sendMs timestamp =>
    sender.scheduler.Lapses now intent ∨
    ∃ budget after popped, payloadBudget = some budget ∧
      (sender.scheduler.expire now).1.popDue Sourced.tlv now budget = (after, popped) ∧
      ((∃ failure, popped = .error failure ∧
          ∃ batch ∈ (sender.scheduler.expire now).1.pending, intent ∈ batch.reservations ∧
            packetize Sourced.tlv batch.tlvs budget = .error failure) ∨
        ∃ datagram, popped = .ok (some datagram) ∧ intent ∈ datagram.reservations ∧
          (datagram.expiresMs ≤ sendMs ∨
            ∃ failure, stampHelloTimestamps datagram.packet.bytes timestamp = .error failure))
  | .timer => ∃ datagram sendDeadline, sender.phase = .sending datagram sendDeadline ∧
      intent ∈ datagram.reservations
  | .poll now completes => ∃ datagram sendDeadline,
      sender.phase = .sending datagram sendDeadline ∧ intent ∈ datagram.reservations ∧
        (sendDeadline ≤ now ∨ completes = true)
  | .admitItem now => ∃ item, sender.phase = .received item ∧ intent = item.reservation ∧
      item.expiresMs ≤ now
  | .stop => True
  | _ => False

theorem Sound.phase_held (sound : sender.Sound)
    (phase : sender.phase = .sending datagram sendDeadline) (held : intent ∈ datagram.reservations) :
    Admits sender.current sender.seen intent := by
  have admitted := sound.phase
  rw [phase] at admitted
  exact admitted.permits intent held

theorem Sound.refresh_keeps (sound : sender.Sound)
    (refreshed : sender.refresh seed = (next, outputs))
    (current : intent.epoch = sender.invalidations) :
    next.channel = sender.channel ∧
      (intent ∈ sender.scheduler.permits → intent ∈ next.scheduler.permits) := by
  rw [Sender.refresh] at refreshed
  split at refreshed
  · cases refreshed
    exact ⟨rfl, id⟩
  · next moved =>
      cases refreshed
      refine ⟨rfl, fun held => ?_⟩
      exact absurd current (Nat.ne_of_lt (sound.outdated (sound.scheduler.permits held) moved))

theorem startSend_held {sendMs : UInt64} {timestamp : UInt32}
    (held : intent ∈ datagram.reservations) :
    intent ∈ (startSend datagram sendMs timestamp).held ∨ datagram.expiresMs ≤ sendMs ∨
      ∃ failure, stampHelloTimestamps datagram.packet.bytes timestamp = .error failure := by
  rw [startSend]
  split
  · next expired => exact .inr (.inl expired)
  · split
    · next failure unstamped => exact .inr (.inr ⟨failure, unstamped⟩)
    · exact .inl held

theorem schedule_keeps (now : UInt64) (payloadBudget : Option Nat) (sendMs : UInt64)
    (timestamp : UInt32) (settled : sender.phase = .settled) (held : intent ∈ sender.held) :
    intent ∈ (sender.schedule now payloadBudget sendMs timestamp).held ∨
      sender.MayLose intent (.schedule now payloadBudget sendMs timestamp) := by
  rw [mem_held] at held
  rcases held with queued | scheduled | hands
  · refine .inl (mem_held.mpr (.inl ?_))
    simp only [Sender.schedule]
    split
    · split
      · exact queued
      · split <;> exact queued
    · exact queued
  · rcases OutputScheduler.permits_expire scheduled with kept | lapsed
    · simp only [Sender.schedule]
      split
      · split
        · exact .inl (mem_held.mpr (.inr (.inl kept)))
        · next budget =>
            split
            · next after failure pops =>
                rcases OutputScheduler.permits_popDue pops kept with still | ⟨_, impossible, -⟩ | lost
                · exact .inl (mem_held.mpr (.inr (.inl still)))
                · cases impossible
                · exact .inr (.inr ⟨budget, after, _, rfl, pops, .inl lost⟩)
            · next after pops =>
                rcases OutputScheduler.permits_popDue pops kept with
                  still | ⟨_, impossible, -⟩ | ⟨_, impossible, -⟩
                · exact .inl (mem_held.mpr (.inr (.inl still)))
                · cases impossible
                · cases impossible
            · next after datagram pops =>
                rcases OutputScheduler.permits_popDue pops kept with
                  still | ⟨_, same, popped⟩ | ⟨_, impossible, -⟩
                · exact .inl (mem_held.mpr (.inr (.inl still)))
                · cases same
                  rcases startSend_held popped with sending | dropped
                  · exact .inl (mem_held.mpr (.inr (.inr sending)))
                  · exact .inr (.inr ⟨budget, after, _, rfl, pops, .inr ⟨datagram, rfl, popped, dropped⟩⟩)
                · cases impossible
      · exact .inl (mem_held.mpr (.inr (.inl kept)))
    · exact .inr (.inl lapsed)
  · rw [settled] at hands
    cases hands

theorem poll_frame (polled : sender.poll datagram sendDeadline now completes = (next, outputs)) :
    next.channel = sender.channel ∧ next.scheduler = sender.scheduler := by
  rw [Sender.poll] at polled
  split at polled
  · cases polled
    exact ⟨rfl, rfl⟩
  · split at polled
    · cases polled
      exact ⟨rfl, rfl⟩
    · split at polled <;> cases polled <;> exact ⟨rfl, rfl⟩

theorem Sound.poll_keeps (sound : sender.Sound)
    (phase : sender.phase = .sending datagram sendDeadline)
    (current : intent.epoch = sender.invalidations) (held : intent ∈ sender.held)
    (polled : sender.poll datagram sendDeadline now completes = (next, outputs)) :
    intent ∈ next.held ∨ sender.MayLose intent (.poll now completes) := by
  obtain ⟨channel, scheduler⟩ := poll_frame polled
  rw [mem_held, phase] at held
  rw [mem_held, channel, scheduler]
  rcases held with queued | scheduled | hands
  · exact .inl (.inl queued)
  · exact .inl (.inr (.inl scheduled))
  · rw [Sender.poll] at polled
    split at polled
    · next moved =>
        have old := sound.outdated (sound.phase_held phase hands) (Ne.symm moved)
        exact absurd current (Nat.ne_of_lt old)
    · split at polled
      · next late => exact .inr ⟨datagram, sendDeadline, phase, hands, .inl late⟩
      · split at polled
        · next done => exact .inr ⟨datagram, sendDeadline, phase, hands, .inr done⟩
        · cases polled
          exact .inl (.inr (.inr (by rw [phase]; exact hands)))

theorem Sound.admitItem_keeps (sound : sender.Sound) (phase : sender.phase = .received item)
    (current : intent.epoch = sender.invalidations) (held : intent ∈ sender.held)
    (admitted : sender.admitItem seed item now = (next, outputs)) :
    intent ∈ next.held ∨ sender.MayLose intent (.admitItem now) := by
  have dated := sound.phase
  rw [phase] at dated
  rw [mem_held, phase] at held
  rw [Sender.admitItem] at admitted
  cases refreshed : sender.refresh seed with
  | mk fresh reset =>
    obtain ⟨settled, generation, -, invalidations, -⟩ := sound.refresh seed refreshed
    obtain ⟨channel, keeps⟩ := sound.refresh_keeps refreshed current
    simp only [refreshed] at admitted
    rw [mem_held]
    split at admitted
    · next stale =>
        cases admitted
        rcases held with queued | scheduled | hands
        · exact .inl (.inl (channel ▸ queued))
        · exact .inl (.inr (.inl (keeps scheduled)))
        · -- a current intent has the generation just read
          obtain rfl : intent = item.reservation := by simpa [SenderPhase.held] using hands
          refine absurd ?_ stale
          rw [dated.generation, current, generation, settled.counted, invalidations]
    · split at admitted
      · next late =>
          cases admitted
          rcases held with queued | scheduled | hands
          · exact .inl (.inl (channel ▸ queued))
          · exact .inl (.inr (.inl (keeps scheduled)))
          · exact .inr ⟨item, phase, by simpa [SenderPhase.held] using hands, late⟩
      · cases admitted
        rcases held with queued | scheduled | hands
        · exact .inl (.inl (channel ▸ queued))
        · exact .inl (.inr (.inl (OutputScheduler.permits_enqueue now (.inl (keeps scheduled)))))
        · exact .inl (.inr (.inl (OutputScheduler.permits_enqueue now
            (.inr (by simpa [SenderPhase.held] using hands)))))

theorem held_of_idle (idle : sender.phase = .backoff ∨ sender.phase = .waiting) :
    sender.phase.held = [] := by
  rcases idle with phase | phase <;> rw [phase] <;> rfl

/-- A step that drops current work does so for one of the named reasons. -/
theorem Sound.step_keeps (sound : sender.Sound) (current : intent.epoch = sender.invalidations)
    (held : intent ∈ sender.held) (taken : sender.step seed event = some (next, outputs)) :
    intent ∈ next.held ∨ sender.MayLose intent event := by
  have places := mem_held.mp held
  rw [mem_held]
  cases step_taken taken with
  | submit other now permitted =>
    refine .inl (places.imp_left fun queued => ?_)
    simp only [Sender.submit]
    split
    · rw [List.map_append]
      exact List.mem_append_left _ queued
    · exact queued
  | invalidate => exact .inl places
  | stop => exact .inr trivial
  | borrow phase refreshed =>
    obtain ⟨channel, keeps⟩ := sound.refresh_keeps refreshed current
    rw [phase] at places
    rcases places with queued | scheduled | hands
    · exact .inl (.inl (channel ▸ queued))
    · exact .inl (.inr (.inl (keeps scheduled)))
    · cases hands
  | schedule now payloadBudget sendMs timestamp phase =>
    rw [← mem_held]
    exact schedule_keeps now payloadBudget sendMs timestamp phase held
  | noticed unseen idle =>
    rw [held_of_idle idle] at places
    exact .inl places
  | interrupted unseen phase =>
    rw [phase] at places
    rcases places with queued | scheduled | hands
    · exact .inl (.inl queued)
    · exact .inl (.inr (.inl scheduled))
    · have old : intent.epoch < sender.invalidations :=
        lt_of_le_of_lt (sound.phase_held phase hands).2 (lt_of_le_of_ne sound.seen unseen)
      exact absurd current (Nat.ne_of_lt old)
  | woken idle =>
    rw [held_of_idle idle] at places
    exact .inl places
  | timedOut phase =>
    rw [phase] at places
    rcases places with queued | scheduled | hands
    · exact .inl (.inl queued)
    · exact .inl (.inr (.inl scheduled))
    · exact .inr ⟨_, _, phase, hands⟩
  | poll phase polled =>
    rw [← mem_held]
    exact sound.poll_keeps phase current held polled
  | receive phase queue =>
    rw [phase, queue] at places
    simp only [List.map_cons, List.mem_cons, SenderPhase.held] at places ⊢
    tauto
  | admitItem phase admitted =>
    rw [← mem_held]
    exact sound.admitItem_keeps phase current held admitted

end Sender

/-- In every interleaving: a poll that may transmit carries only TLVs submitted after the
latest completed invalidation, or before 2^64 of them; whatever a reset or a generation
check throws away was submitted before the latest invalidation; and a step that ends the
stay of an intent submitted after it has one of the other reasons. -/
theorem invalidation_is_a_barrier {seed : UInt64} {history : List (SenderEvent × List SenderOutput)}
    {before after : Sender} {event : SenderEvent} {outputs : List SenderOutput}
    (run : SenderRun seed history before)
    (taken : before.step seed event = some (after, outputs)) :
    (∀ datagram, .polled datagram ∈ outputs → ∀ tlv ∈ datagram.packet.tlvs,
      tlv.intent.epoch = before.invalidations ∨
        tlv.intent.epoch + 2 ^ 64 ≤ before.invalidations) ∧
    (∀ intents, .discarded intents ∈ outputs → ∀ intent ∈ intents,
      intent.epoch < before.invalidations) ∧
    ∀ intent ∈ before.held, intent.epoch = before.invalidations →
      intent ∈ after.held ∨ before.MayLose intent event := by
  have respects := run.sound.step_respects taken
  exact ⟨fun datagram member => respects _ member, fun intents member => respects _ member,
    fun intent held current => run.sound.step_keeps current held taken⟩

/-! ## The generation comes round -/

/-- The state after a list of events that can all happen. -/
def Sender.drive (seed : UInt64) (sender : Sender) : List SenderEvent → Option Sender
  | [] => some sender
  | event :: events => do
    let (next, _) ← sender.step seed event
    drive seed next events

theorem SenderRun.drive (run : SenderRun seed history sender) (events : List SenderEvent)
    (last : Sender) (driven : sender.drive seed events = some last) :
    ∃ longer, SenderRun seed longer last := by
  induction events generalizing history sender with
  | nil =>
    cases driven
    exact ⟨history, run⟩
  | cons event events ih =>
    obtain ⟨⟨next, outputs⟩, taken, rest⟩ := Option.bind_eq_some_iff.mp driven
    exact ih (Run.step run taken) rest

theorem SenderRun.invalidated (run : SenderRun seed history sender) (times : Nat) :
    ∃ longer, SenderRun seed longer
      { sender with
        generation := sender.generation + UInt64.ofNat times
        invalidations := sender.invalidations + times } := by
  induction times with
  | zero =>
    have same : sender.generation + UInt64.ofNat 0 = sender.generation := by simp
    exact ⟨history, by rw [same]; exact run⟩
  | succ times ih =>
    obtain ⟨longer, before⟩ := ih
    have next : sender.generation + UInt64.ofNat (times + 1) =
        sender.generation + UInt64.ofNat times + 1 := by
      rw [UInt64.ofNat_add, ← UInt64.add_assoc]
      rfl
    refine ⟨longer ++ [(.invalidate, [])], Run.step before ?_⟩
    rw [next]
    rfl

namespace SenderFixture

def acking (nonce : UInt16) : OutboundIntent OutboundTlv := ⟨babelMulticastV6, [.ack nonce], ⟨10, 0⟩⟩

/-- The worker takes the next intent from the channel and gets back to the head. -/
def takeOne : List SenderEvent := [.borrow, .schedule 0 (some 1232) 0 0, .receive, .admitItem 0]

/-- It takes the next intent and brings it to the socket. -/
def sendOne : List SenderEvent := takeOne ++ [.borrow, .schedule 0 (some 1232) 0 0]

def sending (nonce : UInt16) (low : UInt8) (intent : Submission) : SenderDatagram :=
  ⟨babelMulticastV6, ⟨[⟨.ack nonce, intent⟩], [42, 2, 0, 4, 3, 2, 0, low]⟩, 10, 1010, [intent]⟩

def idle : SenderScheduler := { OutputScheduler.new 1 with nextSendMs := 2 }

/-- One intent in the channel, and as many invalidations as there are generations. -/
def wrapped : Sender := { (Sender.start 1).submit (acking 7) 0 true with invalidations := 2 ^ 64 }

def leaking : Sender where
  generation := 0
  invalidations := 2 ^ 64
  submissions := 1
  channel := []
  scheduler := idle
  current := 0
  seen := 2 ^ 64
  phase := .sending (sending 7 7 ⟨0, 0⟩) 100

theorem wrapped_generation_leaks :
    ∃ history after, SenderRun 1 history leaking ∧
      leaking.step 1 (.poll 0 true) = some (after, [.polled (sending 7 7 ⟨0, 0⟩)]) ∧
      ∃ tlv ∈ (sending 7 7 ⟨0, 0⟩).packet.tlvs, tlv.intent.epoch < leaking.invalidations := by
  have begun : SenderRun 1 [] (Sender.start 1) := Run.start rfl
  have submitted : SenderRun 1 [(.submit (acking 7) 0 true, [])]
      ((Sender.start 1).submit (acking 7) 0 true) := Run.step begun rfl
  obtain ⟨history, run⟩ := submitted.invalidated (2 ^ 64)
  have around : SenderRun 1 history wrapped := run
  obtain ⟨longer, last⟩ := around.drive sendOne leaking (by decide +kernel)
  exact ⟨longer, { leaking with phase := .top }, last, by decide +kernel,
    ⟨.ack 7, ⟨0, 0⟩⟩, by decide +kernel, by decide +kernel⟩

/-- One intent before an invalidation, one after it. -/
def renewing : List SenderEvent :=
  [.submit (acking 7) 0 true, .invalidate, .submit (acking 8) 0 true] ++ takeOne ++ sendOne

def renewed : Sender where
  generation := 1
  invalidations := 1
  submissions := 2
  channel := []
  scheduler := idle
  current := 1
  seen := 1
  phase := .sending (sending 8 8 ⟨1, 1⟩) 100

theorem fresh_intent_is_sent :
    renewed.step 1 (.poll 0 true) =
        some ({ renewed with phase := .top }, [.polled (sending 8 8 ⟨1, 1⟩)]) ∧
      ∀ tlv ∈ (sending 8 8 ⟨1, 1⟩).packet.tlvs,
        tlv.intent.epoch = 1 ∨ tlv.intent.epoch + 2 ^ 64 ≤ 1 := by
  have begun : SenderRun 1 [] (Sender.start 1) := Run.start rfl
  obtain ⟨history, run⟩ := begun.drive renewing renewed (by decide +kernel)
  have polled : renewed.step 1 (.poll 0 true) =
      some ({ renewed with phase := .top }, [.polled (sending 8 8 ⟨1, 1⟩)]) := by decide +kernel
  exact ⟨polled, (invalidation_is_a_barrier run polled).1 _ (by simp)⟩

end SenderFixture

end BabelRs
