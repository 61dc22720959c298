import BabelRs.Engine.Api
import BabelRs.Lib.Earliest
import BabelRs.Lib.Run
import BabelRs.Wire.Packetizer
import Mathlib.Data.Prod.Lex

/-!
# The output scheduler

Models `output.rs` of the router.  As in the packetizer, `T` stands for a TLV together
with whatever its sender remembers of it and `wire` for the TLV alone.  `R` stands for
the admission permit of an intent, which the scheduler only carries along.
-/

set_option autoImplicit false

namespace BabelRs

open Lib Wire

def DEFAULT_PACING_MS : UInt64 := 2
def DEADLINE_MARGIN_MS : UInt64 := 5

/-! ## Jitter -/

structure JitterRandom where
  state : UInt64
deriving DecidableEq, Repr

namespace JitterRandom

def new (seed : UInt64) : JitterRandom := ⟨if seed = 0 then 0x9e3779b97f4a7c15 else seed⟩

/-- xorshift64*, reduced to a number up to the bound. -/
def bounded (random : JitterRandom) (inclusiveMax : UInt64) : UInt64 × JitterRandom :=
  if inclusiveMax = 0 then (0, random)
  else
    let value := random.state
    let value := value ^^^ (value >>> 12)
    let value := value ^^^ (value <<< 25)
    let value := value ^^^ (value >>> 27)
    (value * 0x2545f4914f6cdd1d % satAdd inclusiveMax 1, ⟨value⟩)

end JitterRandom

/-! ## Work -/

variable {T R : Type}

structure OutboundIntent (T : Type) where
  destination : IpAddr
  tlvs : List T
  timing : SendTiming
deriving DecidableEq

structure QueuedIntent (T R : Type) where
  generation : UInt64
  intent : OutboundIntent T
  expiresMs : UInt64
  reservation : R
deriving DecidableEq

structure PendingBatch (T R : Type) where
  destination : IpAddr
  tlvs : List T
  releaseMs : UInt64
  deadlineMs : UInt64
  expiresMs : UInt64
  reservations : List R
deriving DecidableEq

/-- A datagram waiting to be sent; popped, it is a `ScheduledDatagram` of the source. -/
structure ReadyDatagram (T R : Type) where
  destination : IpAddr
  packet : Encoded T
  deadlineMs : UInt64
  expiresMs : UInt64
  reservations : List R
deriving DecidableEq

namespace PendingBatch

/-- Later work for the same destination joins the batch and never extends its life. -/
def merge (batch later : PendingBatch T R) : PendingBatch T R where
  destination := batch.destination
  tlvs := batch.tlvs ++ later.tlvs
  releaseMs := min batch.releaseMs later.releaseMs
  deadlineMs := min batch.deadlineMs later.deadlineMs
  expiresMs := min batch.expiresMs later.expiresMs
  reservations := batch.reservations ++ later.reservations

/-- Into the first batch for its destination, or behind them all. -/
def enqueueIn (fresh : PendingBatch T R) : List (PendingBatch T R) → List (PendingBatch T R)
  | [] => [fresh]
  | batch :: rest =>
    if batch.destination = fresh.destination then batch.merge fresh :: rest
    else batch :: enqueueIn fresh rest

def due (batch : PendingBatch T R) (now : UInt64) : Bool :=
  batch.releaseMs ≤ now || batch.deadlineMs ≤ now

def ready (batch : PendingBatch T R) (packet : Encoded T) : ReadyDatagram T R :=
  ⟨batch.destination, packet, batch.deadlineMs, batch.expiresMs, batch.reservations⟩

end PendingBatch

/-! ## The scheduler -/

structure OutputScheduler (T R : Type) where
  pending : List (PendingBatch T R)
  ready : List (ReadyDatagram T R)
  nextSendMs : UInt64
  pacingMs : UInt64
  random : JitterRandom
deriving DecidableEq

namespace OutputScheduler

def withPacing (seed pacingMs : UInt64) : OutputScheduler T R := ⟨[], [], 0, pacingMs, .new seed⟩

def new (seed : UInt64) : OutputScheduler T R := withPacing seed DEFAULT_PACING_MS

/-- The longest random delay that keeps a margin before the deadline. -/
def latestDelay (timing : SendTiming) (now : UInt64) : UInt64 :=
  let remaining := satSub timing.deadlineMs now
  min (satSub remaining (min DEADLINE_MARGIN_MS remaining)) timing.maxJitterMs

def enqueue (scheduler : OutputScheduler T R) (queued : QueuedIntent T R) (now : UInt64) :
    OutputScheduler T R :=
  let (delay, random) := scheduler.random.bounded (latestDelay queued.intent.timing now)
  let fresh : PendingBatch T R := {
    destination := queued.intent.destination
    tlvs := queued.intent.tlvs
    releaseMs := satAdd now delay
    deadlineMs := queued.intent.timing.deadlineMs
    expiresMs := queued.expiresMs
    reservations := [queued.reservation] }
  { scheduler with pending := fresh.enqueueIn scheduler.pending, random }

/-- The scheduler without expired work, and how many intents and datagrams that dropped. -/
def expire (scheduler : OutputScheduler T R) (now : UInt64) : OutputScheduler T R × Nat × Nat :=
  let lapsed := scheduler.pending.filter fun batch => batch.expiresMs ≤ now
  let ready := scheduler.ready.filter fun datagram => now < datagram.expiresMs
  ({ scheduler with pending := scheduler.pending.filter (fun batch => !(batch.expiresMs ≤ now)), ready },
    (lapsed.map fun batch => batch.reservations.length).sum,
    scheduler.ready.length - ready.length)

def sendAt (scheduler : OutputScheduler T R) (datagram : ReadyDatagram T R) : UInt64 :=
  min scheduler.nextSendMs datagram.deadlineMs

def nextWakeMs (scheduler : OutputScheduler T R) : Option UInt64 :=
  (scheduler.pending.map (fun batch => min batch.releaseMs batch.deadlineMs)
    ++ scheduler.ready.map scheduler.sendAt).min?

variable (wire : T → OutboundTlv)

/-- Batches that stay pending, datagrams of those that were due, and the encoding error
that ended the loop: the batch it struck is lost, those behind it stay. -/
def packetizeBatches (now : UInt64) (payloadBudget : Nat) :
    List (PendingBatch T R) → List (PendingBatch T R) × List (ReadyDatagram T R) × Option WireError
  | [] => ([], [], none)
  | batch :: rest =>
    if batch.due now then
      match packetize wire batch.tlvs payloadBudget with
      | .error failure => (rest, [], some failure)
      | .ok packets =>
        let later := packetizeBatches now payloadBudget rest
        (later.1, packets.map batch.ready ++ later.2.1, later.2.2)
    else
      let later := packetizeBatches now payloadBudget rest
      (batch :: later.1, later.2)

def packetizeDue (scheduler : OutputScheduler T R) (now : UInt64) (payloadBudget : Nat) :
    OutputScheduler T R × Option WireError :=
  let (pending, ready, failure) := packetizeBatches wire now payloadBudget scheduler.pending
  ({ scheduler with pending, ready := scheduler.ready ++ ready }, failure)

/-- The order of sending: by send time, then by deadline. -/
def urgency (scheduler : OutputScheduler T R) (datagram : ReadyDatagram T R) : ℕ ×ₗ ℕ :=
  toLex ((scheduler.sendAt datagram).toNat, datagram.deadlineMs.toNat)

def popReady (scheduler : OutputScheduler T R) (now : UInt64) :
    OutputScheduler T R × Option (ReadyDatagram T R) :=
  match takeEarliest scheduler.urgency scheduler.ready with
  | none => (scheduler, none)
  | some (datagram, others) =>
    if now < scheduler.sendAt datagram then (scheduler, none)
    else ({ scheduler with ready := others, nextSendMs := satAdd now scheduler.pacingMs },
      some datagram)

def popDue (scheduler : OutputScheduler T R) (now : UInt64) (payloadBudget : Nat) :
    OutputScheduler T R × Except WireError (Option (ReadyDatagram T R)) :=
  match scheduler.packetizeDue wire now payloadBudget with
  | (scheduler, some failure) => (scheduler, .error failure)
  | (scheduler, none) =>
    let (scheduler, popped) := scheduler.popReady now
    (scheduler, .ok popped)

/-- The permits of all work, that is the intents it comes from. -/
def permits (scheduler : OutputScheduler T R) : List R :=
  scheduler.pending.flatMap PendingBatch.reservations
    ++ scheduler.ready.flatMap ReadyDatagram.reservations

end OutputScheduler

/-! ## What goes where -/

variable {pending : List (PendingBatch T R)}

namespace PendingBatch

theorem mem_enqueueIn {fresh batch : PendingBatch T R} (member : batch ∈ fresh.enqueueIn pending) :
    batch ∈ pending ∨ batch = fresh ∨
      ∃ earlier ∈ pending, earlier.destination = fresh.destination ∧ batch = earlier.merge fresh := by
  induction pending with
  | nil => exact .inr (.inl (by simpa [enqueueIn] using member))
  | cons head rest ih =>
    rw [enqueueIn] at member
    split at member
    · next here =>
        rcases List.mem_cons.mp member with rfl | member
        · exact .inr (.inr ⟨head, by simp, here, rfl⟩)
        · exact .inl (by simp [member])
    · rcases List.mem_cons.mp member with rfl | member
      · exact .inl (by simp)
      · rcases ih member with known | rfl | ⟨earlier, inRest, same, rfl⟩
        · exact .inl (by simp [known])
        · exact .inr (.inl rfl)
        · exact .inr (.inr ⟨earlier, by simp [inRest], same, rfl⟩)

end PendingBatch

variable {payloadBudget : Nat}

namespace OutputScheduler

variable (wire : T → OutboundTlv)

theorem packetizeBatches_kept (now : UInt64) (payloadBudget : Nat)
    (pending : List (PendingBatch T R)) :
    (packetizeBatches wire now payloadBudget pending).1.Sublist pending := by
  induction pending with
  | nil => exact List.Sublist.refl _
  | cons batch rest ih =>
    rw [packetizeBatches]
    split
    · split
      · exact List.sublist_cons_self _ _
      · exact ih.trans (List.sublist_cons_self _ _)
    · exact ih.cons_cons batch

variable {wire} in
theorem mem_packetized {now : UInt64} {datagram : ReadyDatagram T R}
    (member : datagram ∈ (packetizeBatches wire now payloadBudget pending).2.1) :
    ∃ batch ∈ pending, ∃ packet, packet.tlvs ⊆ batch.tlvs ∧ datagram = batch.ready packet := by
  induction pending with
  | nil => simp [packetizeBatches] at member
  | cons batch rest ih =>
    have later : datagram ∈ (packetizeBatches wire now payloadBudget rest).2.1 →
        ∃ owner ∈ batch :: rest, ∃ packet, packet.tlvs ⊆ owner.tlvs ∧ datagram = owner.ready packet := by
      intro member
      obtain ⟨owner, inRest, made⟩ := ih member
      exact ⟨owner, by simp [inRest], made⟩
    rw [packetizeBatches] at member
    split at member
    · split at member
      · simp at member
      · next packets packetized =>
        rcases List.mem_append.mp member with member | member
        · obtain ⟨packet, inPackets, rfl⟩ := List.mem_map.mp member
          have inBatch : packet.tlvs ⊆ batch.tlvs := by
            rw [← packetize_tlvs packetized]
            exact fun tlv carried => List.mem_flatMap.mpr ⟨packet, inPackets, carried⟩
          exact ⟨batch, by simp, packet, inBatch, rfl⟩
        · exact later member
    · exact later member

end OutputScheduler

/-! ## No permit is dropped unseen -/

variable {permit : R}

theorem PendingBatch.permits_enqueueIn {fresh : PendingBatch T R}
    (held : permit ∈ pending.flatMap reservations ∨ permit ∈ fresh.reservations) :
    permit ∈ (fresh.enqueueIn pending).flatMap reservations := by
  induction pending with
  | nil => simpa [enqueueIn] using held
  | cons head rest ih =>
    rw [enqueueIn]
    split
    · simp only [List.flatMap_cons, List.mem_append, merge] at held ⊢
      tauto
    · simp only [List.flatMap_cons, List.mem_append] at held ⊢
      tauto

namespace OutputScheduler

variable {scheduler : OutputScheduler T R}

theorem permits_enqueue {queued : QueuedIntent T R} (now : UInt64)
    (held : permit ∈ scheduler.permits ∨ permit = queued.reservation) :
    permit ∈ (scheduler.enqueue queued now).permits := by
  rcases held with held | rfl
  · rcases List.mem_append.mp held with pending | ready
    · exact List.mem_append_left _ (PendingBatch.permits_enqueueIn (.inl pending))
    · exact List.mem_append_right _ ready
  · exact List.mem_append_left _ (PendingBatch.permits_enqueueIn (.inr (by simp)))

def Lapses (scheduler : OutputScheduler T R) (now : UInt64) (permit : R) : Prop :=
  (∃ batch ∈ scheduler.pending, permit ∈ batch.reservations ∧ batch.expiresMs ≤ now) ∨
    ∃ datagram ∈ scheduler.ready, permit ∈ datagram.reservations ∧ datagram.expiresMs ≤ now

theorem permits_expire {now : UInt64} (held : permit ∈ scheduler.permits) :
    permit ∈ (scheduler.expire now).1.permits ∨ scheduler.Lapses now permit := by
  rcases List.mem_append.mp held with pending | ready
  · obtain ⟨batch, inPending, inBatch⟩ := List.mem_flatMap.mp pending
    by_cases lapsed : batch.expiresMs ≤ now
    · exact .inr (.inl ⟨batch, inPending, inBatch, lapsed⟩)
    · refine .inl (List.mem_append_left _ (List.mem_flatMap.mpr ⟨batch, ?_, inBatch⟩))
      exact List.mem_filter.mpr ⟨inPending, by simp [lapsed]⟩
  · obtain ⟨datagram, inReady, inDatagram⟩ := List.mem_flatMap.mp ready
    by_cases lapsed : datagram.expiresMs ≤ now
    · exact .inr (.inr ⟨datagram, inReady, inDatagram, lapsed⟩)
    · refine .inl (List.mem_append_right _ (List.mem_flatMap.mpr ⟨datagram, ?_, inDatagram⟩))
      exact List.mem_filter.mpr ⟨inReady, by simpa using UInt64.not_le.mp lapsed⟩

/-- A batch stays, gives at least one datagram, which holds its permits, or is the one that
fails to encode. -/
theorem permits_packetizeBatches {wire : T → OutboundTlv} {now : UInt64}
    (held : permit ∈ pending.flatMap PendingBatch.reservations) :
    permit ∈ (packetizeBatches wire now payloadBudget pending).1.flatMap PendingBatch.reservations ∨
      permit ∈ (packetizeBatches wire now payloadBudget pending).2.1.flatMap
        ReadyDatagram.reservations ∨
      ∃ failure, (packetizeBatches wire now payloadBudget pending).2.2 = some failure ∧
        ∃ batch ∈ pending, permit ∈ batch.reservations ∧
          packetize wire batch.tlvs payloadBudget = .error failure := by
  induction pending with
  | nil => simp at held
  | cons batch rest ih =>
    rw [List.flatMap_cons, List.mem_append] at held
    rw [packetizeBatches]
    split
    · split
      · next failure failed =>
          exact held.symm.imp id fun own => .inr ⟨failure, rfl, batch, by simp, own, failed⟩
      · next packets packetized =>
          obtain ⟨packing, last, -, -, -, rfl⟩ := packetize_ok packetized
          simp only [List.flatMap_append, List.mem_append, List.mem_cons, exists_eq_or_imp]
          rcases held with own | later
          · exact .inr (.inl (.inl (List.mem_flatMap.mpr ⟨batch.ready last, by simp, own⟩)))
          · rcases ih later with kept | moved | ⟨failure, failed, found⟩
            · exact .inl kept
            · exact .inr (.inl (.inr moved))
            · exact .inr (.inr ⟨failure, failed, .inr found⟩)
    · simp only [List.flatMap_cons, List.mem_append, List.mem_cons, exists_eq_or_imp]
      rcases held with own | later
      · exact .inl (.inl own)
      · rcases ih later with kept | moved | ⟨failure, failed, found⟩
        · exact .inl (.inr kept)
        · exact .inr (.inl moved)
        · exact .inr (.inr ⟨failure, failed, .inr found⟩)

theorem permits_packetizeDue {wire : T → OutboundTlv} {now : UInt64} {packed : OutputScheduler T R}
    {failed : Option WireError}
    (result : scheduler.packetizeDue wire now payloadBudget = (packed, failed))
    (held : permit ∈ scheduler.permits) :
    permit ∈ packed.permits ∨ ∃ failure, failed = some failure ∧
      ∃ batch ∈ scheduler.pending, permit ∈ batch.reservations ∧
        packetize wire batch.tlvs payloadBudget = .error failure := by
  simp only [packetizeDue, Prod.mk.injEq] at result
  obtain ⟨rfl, rfl⟩ := result
  simp only [permits, List.flatMap_append, List.mem_append]
  rcases List.mem_append.mp held with pending | ready
  · rcases permits_packetizeBatches pending with kept | moved | lost
    · exact .inl (.inl kept)
    · exact .inl (.inr (.inr moved))
    · exact .inr lost
  · exact .inl (.inr (.inl ready))

theorem permits_popReady {now : UInt64} (held : permit ∈ scheduler.permits) :
    permit ∈ (scheduler.popReady now).1.permits ∨
      ∃ datagram, (scheduler.popReady now).2 = some datagram ∧ permit ∈ datagram.reservations := by
  rw [popReady]
  split
  · exact .inl held
  · next datagram others taken =>
      split
      · exact .inl held
      · rcases List.mem_append.mp held with pending | ready
        · exact .inl (List.mem_append_left _ pending)
        · obtain ⟨front, back, split, rest, -, -⟩ := takeEarliest_split taken
          simp only [split, List.flatMap_append, List.flatMap_cons, List.mem_append] at ready
          rcases ready with before | own | after
          · refine .inl (List.mem_append_right _ ?_)
            simp only [rest, List.flatMap_append, List.mem_append]
            exact .inl before
          · exact .inr ⟨datagram, rfl, own⟩
          · refine .inl (List.mem_append_right _ ?_)
            simp only [rest, List.flatMap_append, List.mem_append]
            exact .inr after

theorem permits_popDue {wire : T → OutboundTlv} {after : OutputScheduler T R} {now : UInt64}
    {popped : Except WireError (Option (ReadyDatagram T R))}
    (pops : scheduler.popDue wire now payloadBudget = (after, popped))
    (held : permit ∈ scheduler.permits) :
    permit ∈ after.permits ∨
      (∃ datagram, popped = .ok (some datagram) ∧ permit ∈ datagram.reservations) ∨
      ∃ failure, popped = .error failure ∧ ∃ batch ∈ scheduler.pending,
        permit ∈ batch.reservations ∧ packetize wire batch.tlvs payloadBudget = .error failure := by
  rw [popDue] at pops
  split at pops
  · next packed failure result =>
      cases pops
      rcases permits_packetizeDue result held with kept | ⟨_, same, lost⟩
      · exact .inl kept
      · obtain rfl := Option.some.inj same
        exact .inr (.inr ⟨failure, rfl, lost⟩)
  · next packed result =>
      cases pops
      rcases permits_packetizeDue result held with kept | ⟨_, impossible, -⟩
      · rcases permits_popReady kept with still | ⟨datagram, taken, own⟩
        · exact .inl still
        · exact .inr (.inl ⟨datagram, congrArg Except.ok taken, own⟩)
      · cases impossible

end OutputScheduler

/-! ## Runs -/

inductive SchedulerCall (T R : Type) where
  | enqueue (queued : QueuedIntent T R) (now : UInt64)
  | expire (now : UInt64)
  | popDue (now : UInt64) (payloadBudget : Nat)
deriving DecidableEq

def SchedulerCall.now : SchedulerCall T R → UInt64
  | .enqueue _ now | .expire now | .popDue now _ => now

namespace OutputScheduler

variable (wire : T → OutboundTlv)

def call (scheduler : OutputScheduler T R) :
    SchedulerCall T R → OutputScheduler T R × List (ReadyDatagram T R)
  | .enqueue queued now => (scheduler.enqueue queued now, [])
  | .expire now => ((scheduler.expire now).1, [])
  | .popDue now payloadBudget =>
    let (scheduler, popped) := scheduler.popDue wire now payloadBudget
    (scheduler, (popped.toOption.join).toList)

end OutputScheduler

/-- Runs of a new scheduler whose calls are all allowed. -/
abbrev SchedulerRun (wire : T → OutboundTlv) (seed pacingMs : UInt64)
    (allowed : OutputScheduler T R → SchedulerCall T R → Prop) :=
  Run (fun scheduler : OutputScheduler T R => scheduler = .withPacing seed pacingMs)
    fun before call popped after => allowed before call ∧ before.call wire call = (after, popped)

end BabelRs
