import BabelRs.Router.Scheduler

/-!
# The sender worker

Models `run_sender` with the queue of `output_queue.rs` as one system: a producer submits
intents and invalidates what was submitted, a worker receives, schedules and polls the
socket.  A step of the worker is what it does between two reads of shared state, so a
producer step can come between any two.  Every intent and every TLV of it remembers its
submission, and with it how many invalidations were complete by then.

The watch channel is its value and the number of modifications made to it; a receiver
holds the number it has seen.  The permit of an intent is its submission.  Whether the byte
budget admits an intent, and every reading of a clock, is free.  Counters of losses are
left out.
-/

set_option autoImplicit false

namespace BabelRs

open Lib Wire

def OUTPUT_QUEUE_CAPACITY : Nat := 256
def OUTPUT_EXPIRY_GRACE_MS : UInt64 := 1000
def SEND_TIMEOUT_MS : UInt64 := 100

/-- A call of `submit`: how many came before it, and how many invalidations. -/
structure Submission where
  serial : Nat
  epoch : Nat
deriving DecidableEq

structure Sourced where
  tlv : OutboundTlv
  intent : Submission
deriving DecidableEq

abbrev SenderScheduler := OutputScheduler Sourced Submission
abbrev SenderItem := QueuedIntent Sourced Submission
abbrev SenderDatagram := ReadyDatagram Sourced Submission

inductive SenderPhase where
  | top
  /-- the generation is current, the scheduler not yet looked at -/
  | settled
  | backoff
  | sending (datagram : SenderDatagram) (sendDeadline : UInt64)
  | waiting
  | received (item : SenderItem)
  | stopped
deriving DecidableEq

structure Sender where
  /-- value of the watch channel -/
  generation : UInt64
  /-- modifications of the watch channel -/
  invalidations : Nat
  submissions : Nat
  channel : List SenderItem
  scheduler : SenderScheduler
  /-- the worker's copy of the generation -/
  current : UInt64
  /-- modifications its receiver has seen -/
  seen : Nat
  phase : SenderPhase
deriving DecidableEq

inductive SenderEvent where
  | submit (intent : OutboundIntent OutboundTlv) (now : UInt64) (permitted : Bool)
  | invalidate
  | borrow
  /-- it expires, then pops what is due; both clocks are read on the way -/
  | schedule (now : UInt64) (payloadBudget : Option Nat) (sendMs : UInt64) (timestamp : UInt32)
  | changed
  | timer
  | poll (now : UInt64) (completes : Bool)
  | receive
  /-- it reads the generation again and enqueues the intent -/
  | admitItem (now : UInt64)
  | stop
deriving DecidableEq

inductive SenderOutput where
  | polled (datagram : SenderDatagram)
  /-- intents thrown away by a scheduler reset or a generation check -/
  | discarded (intents : List Submission)
deriving DecidableEq

namespace Sender

variable (seed : UInt64)

def start : Sender := ⟨0, 0, 0, [], .new seed, 0, 0, .top⟩

/-! ## The producer -/

def submission (sender : Sender) : Submission := ⟨sender.submissions, sender.invalidations⟩

def queued (sender : Sender) (intent : OutboundIntent OutboundTlv) (now : UInt64) : SenderItem where
  generation := sender.generation
  intent :=
    { destination := intent.destination
      tlvs := intent.tlvs.map fun tlv => ⟨tlv, sender.submission⟩
      timing := intent.timing }
  expiresMs := satAdd (max intent.timing.deadlineMs now) OUTPUT_EXPIRY_GRACE_MS
  reservation := sender.submission

def submit (sender : Sender) (intent : OutboundIntent OutboundTlv) (now : UInt64)
    (permitted : Bool) : Sender :=
  let channel :=
    if permitted ∧ sender.channel.length < OUTPUT_QUEUE_CAPACITY then
      sender.channel ++ [sender.queued intent now]
    else sender.channel
  { sender with channel, submissions := sender.submissions + 1 }

def invalidate (sender : Sender) : Sender :=
  { sender with
    generation := sender.generation + 1
    invalidations := sender.invalidations + 1 }

/-! ## The worker -/

/-- `borrow_and_update`, and a new scheduler if the generation moved. -/
def refresh (sender : Sender) : Sender × List SenderOutput :=
  let read := { sender with seen := sender.invalidations, current := sender.generation }
  if sender.current = sender.generation then (read, [])
  else ({ read with scheduler := .new seed }, [.discarded sender.scheduler.permits])

/-- A popped datagram is dropped if it expired meanwhile or cannot be stamped. -/
def startSend (datagram : SenderDatagram) (sendMs : UInt64) (timestamp : UInt32) : SenderPhase :=
  if datagram.expiresMs ≤ sendMs then .top
  else match stampHelloTimestamps datagram.packet.bytes timestamp with
    | .error _ => .top
    | .ok bytes =>
      .sending { datagram with packet := ⟨datagram.packet.tlvs, bytes⟩ }
        (satAdd sendMs (min SEND_TIMEOUT_MS (datagram.expiresMs - sendMs)))

def schedule (sender : Sender) (now : UInt64) (payloadBudget : Option Nat) (sendMs : UInt64)
    (timestamp : UInt32) : Sender :=
  let scheduler := (sender.scheduler.expire now).1
  if scheduler.nextWakeMs.any (· ≤ now) then
    match payloadBudget with
    | none => { sender with scheduler, phase := .backoff }
    | some payloadBudget =>
      match scheduler.popDue Sourced.tlv now payloadBudget with
      | (scheduler, .error _) => { sender with scheduler, phase := .top }
      | (scheduler, .ok none) => { sender with scheduler, phase := .waiting }
      | (scheduler, .ok (some datagram)) =>
        { sender with scheduler, phase := startSend datagram sendMs timestamp }
  else { sender with scheduler, phase := .waiting }

/-- One poll under the generation guard: a stale generation or a passed deadline ends
the send without touching the socket. -/
def poll (sender : Sender) (datagram : SenderDatagram) (sendDeadline now : UInt64)
    (completes : Bool) : Sender × List SenderOutput :=
  if sender.generation ≠ sender.current then
    ({ sender with phase := .top }, [.discarded datagram.reservations])
  else if sendDeadline ≤ now then ({ sender with phase := .top }, [])
  else if completes then ({ sender with phase := .top }, [.polled datagram])
  else (sender, [.polled datagram])

/-- Enqueue a received intent, unless it is stale or expired. -/
def admitItem (sender : Sender) (item : SenderItem) (now : UInt64) : Sender × List SenderOutput :=
  let (sender, outputs) := sender.refresh seed
  let sender := { sender with phase := .top }
  if item.generation ≠ sender.current then (sender, outputs ++ [.discarded [item.reservation]])
  else if item.expiresMs ≤ now then (sender, outputs)
  else ({ sender with scheduler := sender.scheduler.enqueue item now }, outputs)

/-- What the worker does when its receiver reports a modification. -/
def noticed (sender : Sender) : Sender := { sender with seen := sender.invalidations, phase := .top }

/-- The state after an event and what it put out; `none` where the event cannot happen. -/
def step (sender : Sender) : SenderEvent → Option (Sender × List SenderOutput)
  | .submit intent now permitted => some (sender.submit intent now permitted, [])
  | .invalidate => some (sender.invalidate, [])
  | .stop => some ({ sender with phase := .stopped }, [])
  | .borrow =>
    match sender.phase with
    | .top =>
      let (sender, outputs) := sender.refresh seed
      some ({ sender with phase := .settled }, outputs)
    | _ => none
  | .schedule now payloadBudget sendMs timestamp =>
    match sender.phase with
    | .settled => some (sender.schedule now payloadBudget sendMs timestamp, [])
    | _ => none
  | .changed =>
    if sender.seen = sender.invalidations then none
    else match sender.phase with
      | .backoff | .waiting => some (sender.noticed, [])
      | .sending datagram _ => some (sender.noticed, [.discarded datagram.reservations])
      | _ => none
  | .timer =>
    match sender.phase with
    | .backoff | .waiting | .sending _ _ => some ({ sender with phase := .top }, [])
    | _ => none
  | .poll now completes =>
    match sender.phase with
    | .sending datagram sendDeadline => some (sender.poll datagram sendDeadline now completes)
    | _ => none
  | .receive =>
    match sender.phase, sender.channel with
    | .waiting, item :: channel => some ({ sender with channel, phase := .received item }, [])
    | _, _ => none
  | .admitItem now =>
    match sender.phase with
    | .received item => some (sender.admitItem seed item now)
    | _ => none

end Sender

/-- Interleavings of the producer with the worker. -/
abbrev SenderRun (seed : UInt64) :=
  Run (fun sender : Sender => sender = .start seed)
    fun before event outputs after => before.step seed event = some (after, outputs)

end BabelRs
