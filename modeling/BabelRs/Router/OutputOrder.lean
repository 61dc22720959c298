import BabelRs.Router.Scheduler
import Mathlib.Data.List.Chain
import Mathlib.Data.List.Flatten

/-!
# Output order

The datagrams popped for one destination carry its TLVs in the order they were enqueued,
as long as no intent is enqueued with an earlier deadline than a datagram that already
waits for the same destination.  An urgent intent overtakes such a datagram.
-/

set_option autoImplicit false

namespace BabelRs

open Lib Wire

variable {T R : Type}

def datagramTlvs (destination : IpAddr) (datagrams : List (ReadyDatagram T R)) : List T :=
  (datagrams.filter fun datagram => datagram.destination = destination).flatMap fun datagram =>
    datagram.packet.tlvs

def batchTlvs (destination : IpAddr) (batches : List (PendingBatch T R)) : List T :=
  (batches.filter fun batch => batch.destination = destination).flatMap PendingBatch.tlvs

def SchedulerCall.tlvsFor (destination : IpAddr) : SchedulerCall T R → List T
  | .enqueue queued _ => if queued.intent.destination = destination then queued.intent.tlvs else []
  | _ => []

def enqueuedFor (destination : IpAddr)
    (history : List (SchedulerCall T R × List (ReadyDatagram T R))) : List T :=
  history.flatMap fun entry => entry.1.tlvsFor destination

def poppedFor (destination : IpAddr)
    (history : List (SchedulerCall T R × List (ReadyDatagram T R))) : List T :=
  history.flatMap fun entry => datagramTlvs destination entry.2

/-- No datagram that waits for the same destination has a later deadline. -/
def NotMoreUrgent (scheduler : OutputScheduler T R) : SchedulerCall T R → Prop
  | .enqueue queued _ => ∀ datagram ∈ scheduler.ready,
      datagram.destination = queued.intent.destination →
        datagram.deadlineMs ≤ queued.intent.timing.deadlineMs
  | _ => True

@[simp] theorem datagramTlvs_nil (destination : IpAddr) :
    datagramTlvs destination ([] : List (ReadyDatagram T R)) = [] := rfl

@[simp] theorem enqueuedFor_concat (destination : IpAddr)
    (history : List (SchedulerCall T R × List (ReadyDatagram T R)))
    (entry : SchedulerCall T R × List (ReadyDatagram T R)) :
    enqueuedFor destination (history ++ [entry]) =
      enqueuedFor destination history ++ entry.1.tlvsFor destination := by
  simp [enqueuedFor]

@[simp] theorem poppedFor_concat (destination : IpAddr)
    (history : List (SchedulerCall T R × List (ReadyDatagram T R)))
    (entry : SchedulerCall T R × List (ReadyDatagram T R)) :
    poppedFor destination (history ++ [entry]) =
      poppedFor destination history ++ datagramTlvs destination entry.2 := by
  simp [poppedFor]

@[simp] theorem datagramTlvs_append (destination : IpAddr) (first second : List (ReadyDatagram T R)) :
    datagramTlvs destination (first ++ second) =
      datagramTlvs destination first ++ datagramTlvs destination second := by
  simp [datagramTlvs]

theorem datagramTlvs_sublist (destination : IpAddr) {fewer more : List (ReadyDatagram T R)}
    (sub : fewer.Sublist more) :
    (datagramTlvs destination fewer).Sublist (datagramTlvs destination more) :=
  (sub.filter _).flatMap _

theorem batchTlvs_sublist (destination : IpAddr) {fewer more : List (PendingBatch T R)}
    (sub : fewer.Sublist more) :
    (batchTlvs destination fewer).Sublist (batchTlvs destination more) :=
  (sub.filter _).flatMap _

theorem batchTlvs_cons (destination : IpAddr) (batch : PendingBatch T R)
    (rest : List (PendingBatch T R)) :
    batchTlvs destination (batch :: rest) =
      (if batch.destination = destination then batch.tlvs else []) ++ batchTlvs destination rest := by
  by_cases here : batch.destination = destination
  · simp [batchTlvs, here]
  · simp [batchTlvs, here]

theorem datagramTlvs_ready (destination : IpAddr) (batch : PendingBatch T R)
    (packets : List (Encoded T)) :
    datagramTlvs destination (packets.map batch.ready) =
      if batch.destination = destination then packets.flatMap Encoded.tlvs else [] := by
  by_cases here : batch.destination = destination
  · simp [datagramTlvs, List.filter_map, PendingBatch.ready, here, Function.comp_def,
      List.flatMap_map]
  · simp [datagramTlvs, List.filter_map, PendingBatch.ready, here, Function.comp_def]

/-! ## Enqueueing -/

namespace PendingBatch

theorem destinations_enqueueIn (fresh : PendingBatch T R) (pending : List (PendingBatch T R)) :
    (fresh.enqueueIn pending).map destination =
      if fresh.destination ∈ pending.map destination then pending.map destination
      else pending.map destination ++ [fresh.destination] := by
  induction pending with
  | nil => simp [enqueueIn]
  | cons head rest ih =>
    by_cases here : head.destination = fresh.destination
    · simp [enqueueIn, here, merge]
    · have there : fresh.destination ≠ head.destination := Ne.symm here
      simp only [enqueueIn, here, if_false, List.map_cons, ih, List.mem_cons, there, false_or]
      split <;> simp

theorem batchTlvs_enqueueIn (target : IpAddr) (fresh : PendingBatch T R)
    {pending : List (PendingBatch T R)} (distinct : (pending.map destination).Nodup) :
    batchTlvs target (fresh.enqueueIn pending) =
      batchTlvs target pending ++ if fresh.destination = target then fresh.tlvs else [] := by
  induction pending with
  | nil =>
    by_cases toward : fresh.destination = target
    · simp [enqueueIn, batchTlvs, toward]
    · simp [enqueueIn, batchTlvs, toward]
  | cons head rest ih =>
    obtain ⟨alone, distinct⟩ := List.nodup_cons.mp distinct
    by_cases here : head.destination = fresh.destination
    · by_cases toward : fresh.destination = target
      · -- no other batch goes there, so the end of this one is the end of the lane
        have others : batchTlvs target rest = [] := by
          have none : rest.filter (fun batch => batch.destination = target) = [] :=
            List.filter_eq_nil_iff.mpr fun batch member same =>
              alone (List.mem_map.mpr ⟨batch, member,
                (of_decide_eq_true same).trans (toward.symm.trans here.symm)⟩)
          rw [batchTlvs, none, List.flatMap_nil]
        simp [enqueueIn, here, batchTlvs_cons, merge, toward, others]
      · simp [enqueueIn, here, batchTlvs_cons, merge, toward]
    · rw [enqueueIn, if_neg here, batchTlvs_cons, batchTlvs_cons, ih distinct, List.append_assoc]

end PendingBatch

/-! ## Packetizing -/

namespace OutputScheduler

variable (wire : T → OutboundTlv)

theorem batchTlvs_packetized (target : IpAddr) (now : UInt64) (payloadBudget : Nat)
    {pending : List (PendingBatch T R)} (distinct : (pending.map PendingBatch.destination).Nodup) :
    (datagramTlvs target (packetizeBatches wire now payloadBudget pending).2.1
      ++ batchTlvs target (packetizeBatches wire now payloadBudget pending).1).Sublist
        (batchTlvs target pending) := by
  induction pending with
  | nil => exact List.Sublist.refl _
  | cons batch rest ih =>
    obtain ⟨alone, distinct⟩ := List.nodup_cons.mp distinct
    have later := ih distinct
    rw [packetizeBatches, batchTlvs_cons]
    split
    · split
      · exact List.sublist_append_right _ _
      · next packets packetized =>
          simp only [datagramTlvs_append, datagramTlvs_ready, packetize_tlvs packetized,
            List.append_assoc]
          exact (List.Sublist.refl _).append later
    · simp only [batchTlvs_cons]
      by_cases here : batch.destination = target
      · -- a waiting batch has no datagram of its destination behind it
        have none : datagramTlvs target (packetizeBatches wire now payloadBudget rest).2.1 = [] := by
          have empty : (packetizeBatches wire now payloadBudget rest).2.1.filter
              (fun datagram => datagram.destination = target) = [] := by
            refine List.filter_eq_nil_iff.mpr fun datagram member same => ?_
            obtain ⟨owner, inRest, packet, -, rfl⟩ := mem_packetized member
            exact alone (List.mem_map.mpr ⟨owner, inRest,
              (of_decide_eq_true same).trans here.symm⟩)
          rw [datagramTlvs, empty, List.flatMap_nil]
        simpa [none, here] using later
      · simpa [here] using later

/-- Among the datagrams of one moment the later deadline is never the more urgent. -/
theorem urgency_mono (scheduler : OutputScheduler T R) {first second : ReadyDatagram T R}
    (later : first.deadlineMs.toNat ≤ second.deadlineMs.toNat) :
    scheduler.urgency first ≤ scheduler.urgency second := by
  have sends : (scheduler.sendAt first).toNat ≤ (scheduler.sendAt second).toNat := by
    rw [sendAt, sendAt, toNat_min, toNat_min]
    omega
  rw [urgency, urgency, Prod.Lex.toLex_le_toLex]
  omega

end OutputScheduler

/-! ## The invariant -/

/-- What keeps the lanes in order. -/
structure InOrder (history : List (SchedulerCall T R × List (ReadyDatagram T R)))
    (scheduler : OutputScheduler T R) : Prop where
  distinct : (scheduler.pending.map PendingBatch.destination).Nodup
  sorted : LanesSorted (fun datagram : ReadyDatagram T R => datagram.deadlineMs.toNat)
    ReadyDatagram.destination scheduler.ready
  behind : ∀ batch ∈ scheduler.pending, ∀ datagram ∈ scheduler.ready,
    datagram.destination = batch.destination → datagram.deadlineMs ≤ batch.deadlineMs
  ordered : ∀ target, (poppedFor target history ++ (datagramTlvs target scheduler.ready
    ++ batchTlvs target scheduler.pending)).Sublist (enqueuedFor target history)

namespace InOrder

variable {history : List (SchedulerCall T R × List (ReadyDatagram T R))}
  {scheduler : OutputScheduler T R}

theorem enqueue {queued : QueuedIntent T R} {now : UInt64} (inv : InOrder history scheduler)
    (allowed : NotMoreUrgent scheduler (.enqueue queued now)) :
    InOrder (history ++ [(.enqueue queued now, [])]) (scheduler.enqueue queued now) where
  distinct := by
    rw [OutputScheduler.enqueue, PendingBatch.destinations_enqueueIn]
    split
    · exact inv.distinct
    · next new => exact List.concat_eq_append ▸ List.Nodup.concat new inv.distinct
  sorted := inv.sorted
  behind := by
    intro batch member datagram waiting same
    rcases PendingBatch.mem_enqueueIn member with known | rfl | ⟨earlier, known, joined, rfl⟩
    · exact inv.behind batch known datagram waiting same
    · exact allowed datagram waiting same
    · have early := inv.behind earlier known datagram waiting same
      have late := allowed datagram waiting (same.trans joined)
      exact Std.le_min_iff.mpr ⟨early, late⟩
  ordered := by
    intro target
    have joined := (inv.ordered target).append (List.Sublist.refl
      (if queued.intent.destination = target then queued.intent.tlvs else []))
    simpa [SchedulerCall.tlvsFor, OutputScheduler.enqueue,
      PendingBatch.batchTlvs_enqueueIn target _ inv.distinct] using joined

theorem expire (inv : InOrder history scheduler) (now : UInt64) :
    InOrder (history ++ [(.expire now, [])]) (scheduler.expire now).1 where
  distinct := inv.distinct.sublist ((List.filter_sublist).map _)
  sorted := inv.sorted.sublist List.filter_sublist
  behind := fun batch member datagram waiting =>
    inv.behind batch (List.mem_of_mem_filter member) datagram (List.mem_of_mem_filter waiting)
  ordered := by
    intro target
    have left := (datagramTlvs_sublist target (List.filter_sublist (l := scheduler.ready)
      (p := fun datagram => now < datagram.expiresMs))).append
        (batchTlvs_sublist target (List.filter_sublist (l := scheduler.pending)
          (p := fun batch => !(batch.expiresMs ≤ now))))
    have kept := ((List.Sublist.refl (poppedFor target history)).append left).trans
      (inv.ordered target)
    simpa [SchedulerCall.tlvsFor, OutputScheduler.expire] using kept

variable (wire : T → OutboundTlv)

theorem packetizeDue (inv : InOrder history scheduler) (now : UInt64) (payloadBudget : Nat) :
    InOrder history (scheduler.packetizeDue wire now payloadBudget).1 := by
  have kept := OutputScheduler.packetizeBatches_kept wire now payloadBudget scheduler.pending
  -- destinations are distinct, so lane mates come from one batch
  have single : ∀ {first second}, first ∈ scheduler.pending → second ∈ scheduler.pending →
      first.destination = second.destination → first = second :=
    fun inFirst inSecond same => List.inj_on_of_nodup_map inv.distinct inFirst inSecond same
  refine ⟨inv.distinct.sublist (kept.map _), ?_, ?_, ?_⟩
  · refine List.pairwise_append.mpr ⟨inv.sorted, List.pairwise_of_forall_mem_list ?_, ?_⟩
    · intro first inFirst second inSecond same
      obtain ⟨batch, pending, packet, -, rfl⟩ := OutputScheduler.mem_packetized inFirst
      obtain ⟨other, alsoPending, packet', -, rfl⟩ := OutputScheduler.mem_packetized inSecond
      rw [single pending alsoPending same]
      rfl
    · intro datagram waiting fresh inFresh same
      obtain ⟨batch, pending, packet, -, rfl⟩ := OutputScheduler.mem_packetized inFresh
      exact inv.behind batch pending datagram waiting same
  · intro batch member datagram waiting same
    rcases List.mem_append.mp waiting with waiting | fresh
    · exact inv.behind batch (kept.subset member) datagram waiting same
    · obtain ⟨owner, pending, packet, -, rfl⟩ := OutputScheduler.mem_packetized fresh
      rw [single (kept.subset member) pending same.symm]
      exact UInt64.le_refl _
  · intro target
    have lane := OutputScheduler.batchTlvs_packetized wire target now payloadBudget inv.distinct
    refine List.Sublist.trans ?_ (inv.ordered target)
    simp only [OutputScheduler.packetizeDue, datagramTlvs_append, List.append_assoc]
    exact (List.Sublist.refl _).append ((List.Sublist.refl _).append lane)

/-- A datagram leaves from the front of its lane. -/
theorem popReady (inv : InOrder history scheduler) (now : UInt64) (payloadBudget : Nat) :
    InOrder (history ++ [(.popDue now payloadBudget, (scheduler.popReady now).2.toList)])
      (scheduler.popReady now).1 := by
  have silent : InOrder (history ++ [(.popDue now payloadBudget, [])]) scheduler :=
    ⟨inv.distinct, inv.sorted, inv.behind, by simpa [SchedulerCall.tlvsFor] using inv.ordered⟩
  rw [OutputScheduler.popReady]
  split
  · exact silent
  · next datagram others taken =>
      split
      · exact silent
      · have sorted : LanesSorted scheduler.urgency ReadyDatagram.destination scheduler.ready :=
          inv.sorted.imp fun {first second} later same => scheduler.urgency_mono (later same)
        have fewer := takeEarliest_sublist taken
        refine ⟨inv.distinct, inv.sorted.sublist fewer,
          fun batch member waiting inOthers => inv.behind batch member waiting (fewer.subset inOthers),
          fun target => ?_⟩
        have lane : datagramTlvs target scheduler.ready =
            datagramTlvs target [datagram] ++ datagramTlvs target others := by
          by_cases here : datagram.destination = target
          · subst here
            simp [datagramTlvs, sorted.takeEarliest_lane taken]
          · simp [datagramTlvs, takeEarliest_other taken here, here]
        have before := inv.ordered target
        rw [lane] at before
        simpa [SchedulerCall.tlvsFor] using before

theorem call {before after : OutputScheduler T R} {call : SchedulerCall T R}
    {popped : List (ReadyDatagram T R)} (inv : InOrder history before)
    (allowed : NotMoreUrgent before call) (called : before.call wire call = (after, popped)) :
    InOrder (history ++ [(call, popped)]) after := by
  cases call with
  | enqueue queued now =>
    cases called
    exact inv.enqueue allowed
  | expire now =>
    cases called
    exact inv.expire now
  | popDue now payloadBudget =>
    have packetized := inv.packetizeDue wire now payloadBudget
    simp only [OutputScheduler.call, OutputScheduler.popDue] at called
    cases result : before.packetizeDue wire now payloadBudget with
    | mk scheduler failure =>
      rw [result] at called packetized
      cases failure with
      | some failure =>
        cases called
        exact ⟨packetized.distinct, packetized.sorted, packetized.behind,
          by simpa [SchedulerCall.tlvsFor, Except.toOption] using packetized.ordered⟩
      | none =>
        cases called
        exact packetized.popReady now payloadBudget

end InOrder

/-! ## Calls one after the other -/

def OutputScheduler.play (wire : T → OutboundTlv) (scheduler : OutputScheduler T R) :
    List (SchedulerCall T R) →
      List (SchedulerCall T R × List (ReadyDatagram T R)) × OutputScheduler T R
  | [] => ([], scheduler)
  | call :: calls =>
    let stepped := scheduler.call wire call
    let later := play wire stepped.1 calls
    ((call, stepped.2) :: later.1, later.2)

def allowedThroughout (wire : T → OutboundTlv)
    (allowed : OutputScheduler T R → SchedulerCall T R → Prop) (scheduler : OutputScheduler T R) :
    List (SchedulerCall T R) → Prop
  | [] => True
  | call :: calls =>
    allowed scheduler call ∧ allowedThroughout wire allowed (scheduler.call wire call).1 calls

theorem SchedulerRun.play {wire : T → OutboundTlv} {seed pacingMs : UInt64}
    {allowed : OutputScheduler T R → SchedulerCall T R → Prop}
    {history : List (SchedulerCall T R × List (ReadyDatagram T R))}
    {scheduler : OutputScheduler T R} (calls : List (SchedulerCall T R))
    (before : SchedulerRun wire seed pacingMs allowed history scheduler)
    (fits : allowedThroughout wire allowed scheduler calls) :
    SchedulerRun wire seed pacingMs allowed (history ++ (scheduler.play wire calls).1)
      (scheduler.play wire calls).2 := by
  induction calls generalizing history scheduler with
  | nil => simpa [OutputScheduler.play] using before
  | cons call calls ih =>
    have called : scheduler.call wire call =
        ((scheduler.call wire call).1, (scheduler.call wire call).2) := rfl
    have stepped := ih (Run.step before ⟨fits.1, called⟩) fits.2
    simpa only [OutputScheduler.play, List.append_assoc, List.singleton_append] using stepped

/-! ## The order of output -/

/-- The TLVs popped for a destination are among those enqueued for it, in the same order,
in every run that never enqueues an intent more urgent than what waits for its
destination.  `T` may tell every TLV from every other. -/
theorem output_in_order (wire : T → OutboundTlv) (seed pacingMs : UInt64) {scheduler : OutputScheduler T R}
    {history : List (SchedulerCall T R × List (ReadyDatagram T R))}
    (run : SchedulerRun wire seed pacingMs NotMoreUrgent history scheduler) (destination : IpAddr) :
    (poppedFor destination history).Sublist (enqueuedFor destination history) := by
  have inv : InOrder history scheduler := by
    refine run.invariant InOrder ?_ fun history before call popped after inv step =>
      inv.call wire step.1 step.2
    rintro _ rfl
    exact ⟨List.nodup_nil, List.Pairwise.nil, by simp [OutputScheduler.withPacing],
      fun target => List.nil_sublist _⟩
  exact (List.sublist_append_left _ _).trans (inv.ordered destination)

namespace SchedulerFixture

def origin : RouterId := ⟨7, by decide, by decide⟩

def routeTo (subnet : BitVec 128) : RouteKey := ⟨.v6 (subnet <<< 64) 64, none⟩

def announcing (subnet : BitVec 128) (metric : UInt16) : OutboundTlv :=
  .update ⟨some (routeTo subnet), some origin, none, 400, 1, metric, false, []⟩

def sending (tlvs : List OutboundTlv) (deadlineMs : UInt64) : QueuedIntent OutboundTlv Unit :=
  ⟨0, ⟨babelMulticastV6, tlvs, ⟨deadlineMs, 0⟩⟩, satAdd deadlineMs 1000, ()⟩

/-- Two Updates that fill a datagram each, and a retraction of the second while it waits
for its turn. -/
def overtaking (retractionDeadline : UInt64) : List (SchedulerCall OutboundTlv Unit) :=
  [.enqueue (sending [announcing 1 96, announcing 2 96] 10000) 0,
    .popDue 0 40,
    .enqueue (sending [announcing 2 INFINITY] retractionDeadline) 1,
    .popDue 2 40,
    .popDue 4 40]

def played (retractionDeadline : UInt64) :
    List (SchedulerCall OutboundTlv Unit × List (ReadyDatagram OutboundTlv Unit)) ×
      OutputScheduler OutboundTlv Unit :=
  (OutputScheduler.withPacing 1 DEFAULT_PACING_MS).play id (overtaking retractionDeadline)

theorem played_run (retractionDeadline : UInt64)
    {allowed : OutputScheduler OutboundTlv Unit → SchedulerCall OutboundTlv Unit → Prop}
    (fits : allowedThroughout id allowed (.withPacing 1 DEFAULT_PACING_MS)
      (overtaking retractionDeadline)) :
    SchedulerRun id 1 DEFAULT_PACING_MS allowed (played retractionDeadline).1
      (played retractionDeadline).2 := by
  have begun : SchedulerRun id 1 DEFAULT_PACING_MS allowed []
      (OutputScheduler.withPacing 1 DEFAULT_PACING_MS) := Run.start rfl
  simpa [played] using begun.play (overtaking retractionDeadline) fits

theorem patient_retraction_waits :
    poppedFor babelMulticastV6 (played 10000).1 =
        [announcing 1 96, announcing 2 96, announcing 2 INFINITY] ∧
      (poppedFor babelMulticastV6 (played 10000).1).Sublist
        (enqueuedFor babelMulticastV6 (played 10000).1) :=
  ⟨by decide +kernel, output_in_order id 1 DEFAULT_PACING_MS
    (played_run 10000 (by
      simp only [overtaking, allowedThroughout, NotMoreUrgent]
      decide +kernel)) babelMulticastV6⟩

/-- An urgent retraction overtakes the Update it retracts; the clock never runs backwards. -/
theorem retraction_overtakes_update :
    ∃ history scheduler,
      SchedulerRun (R := Unit) id 1 DEFAULT_PACING_MS (fun _ _ => True) history scheduler ∧
        (history.map fun entry => entry.1.now).Pairwise (· ≤ ·) ∧
        enqueuedFor babelMulticastV6 history =
          [announcing 1 96, announcing 2 96, announcing 2 INFINITY] ∧
        poppedFor babelMulticastV6 history =
          [announcing 1 96, announcing 2 INFINITY, announcing 2 96] :=
  ⟨(played 200).1, (played 200).2, played_run 200 (by simp [overtaking, allowedThroughout]),
    by decide +kernel, by decide +kernel, by decide +kernel⟩

end SchedulerFixture

/-! ## Pacing -/

def pops (history : List (SchedulerCall T R × List (ReadyDatagram T R))) :
    List (UInt64 × ReadyDatagram T R) :=
  history.flatMap fun entry => entry.2.map (entry.1.now, ·)

namespace OutputScheduler

variable (wire : T → OutboundTlv) (scheduler : OutputScheduler T R)

/-- A pop waits for its turn or meets its deadline, and sets the next turn. -/
theorem popDue_paced (now : UInt64) (payloadBudget : Nat) :
    ∃ after popped, scheduler.call wire (.popDue now payloadBudget) = (after, popped) ∧
      after.pacingMs = scheduler.pacingMs ∧
      (popped = [] ∧ after.nextSendMs = scheduler.nextSendMs ∨
        ∃ datagram, popped = [datagram] ∧ after.nextSendMs = satAdd now scheduler.pacingMs ∧
          (scheduler.nextSendMs ≤ now ∨ datagram.deadlineMs ≤ now)) := by
  simp only [call, popDue, packetizeDue]
  cases (packetizeBatches wire now payloadBudget scheduler.pending).2.2 with
  | some failure => exact ⟨_, _, rfl, rfl, .inl ⟨rfl, rfl⟩⟩
  | none =>
    simp only [popReady]
    split
    · exact ⟨_, _, rfl, rfl, .inl ⟨rfl, rfl⟩⟩
    · split_ifs with early
      · exact ⟨_, _, rfl, rfl, .inl ⟨rfl, rfl⟩⟩
      · rw [sendAt, UInt64.not_lt] at early
        exact ⟨_, _, rfl, rfl, .inr ⟨_, rfl, rfl, Std.min_le.mp early⟩⟩

/-- Between two pops lies the pacing interval, unless the later one meets its deadline. -/
theorem pacing_yields_only_to_deadlines (calls : List (SchedulerCall T R)) :
    (pops (scheduler.play wire calls).1).IsChain (fun earlier later =>
        satAdd earlier.1 scheduler.pacingMs ≤ later.1 ∨ later.2.deadlineMs ≤ later.1) ∧
      ∀ first ∈ (pops (scheduler.play wire calls).1).head?,
        scheduler.nextSendMs ≤ first.1 ∨ first.2.deadlineMs ≤ first.1 := by
  induction calls generalizing scheduler with
  | nil => exact ⟨.nil, by simp [play, pops]⟩
  | cons call calls ih =>
    cases call with
    | enqueue queued now => exact ih (scheduler.enqueue queued now)
    | expire now => exact ih (scheduler.expire now).1
    | popDue now payloadBudget =>
      obtain ⟨after, popped, called, pacing, taken⟩ :=
        scheduler.popDue_paced wire now payloadBudget
      obtain ⟨chain, first⟩ := ih after
      rw [pacing] at chain
      simp only [play, called]
      rcases taken with ⟨rfl, turn⟩ | ⟨datagram, rfl, turn, waited⟩
      · exact ⟨chain, turn ▸ first⟩
      · refine ⟨List.isChain_cons.mpr ⟨turn ▸ first, chain⟩, fun pop head => ?_⟩
        cases head
        exact waited

end OutputScheduler

end BabelRs
