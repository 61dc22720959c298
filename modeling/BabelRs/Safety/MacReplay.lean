import BabelRs.Lib.AntiReplay
import BabelRs.Safety.MacSigning

/-!
# No datagram is accepted twice

A world of honest sessions that sign, receive and expire in any order.  Datagrams come
from anywhere: a `receive` is handed any octets, and the only thing the world knows of
an adversary is that a datagram with a valid MAC has the body and the endpoints of one
that some honest session signed.  The random source never repeats a value, and nobody
has signed a reply to a nonce before it was drawn.
-/

set_option autoImplicit false

namespace BabelRs

open Lib Mac MacSession ReplayGuard

def DatagramEndpoints.wire (endpoints : DatagramEndpoints) :
    (IpAddr × UInt16) × IpAddr × UInt16 :=
  ((endpoints.source.ip, endpoints.source.port),
    endpoints.destination.ip, endpoints.destination.port)

/-- Whether the MAC check of `receive` passes. -/
def MacSession.verifies (digest : MacKey → List UInt8 → List UInt8) (session : MacSession)
    (packet : List UInt8) (endpoints : DatagramEndpoints) : Bool :=
  match bodyEnd packet with
  | .ok stop =>
    match session.verified digest packet stop endpoints with
    | .ok valid => valid
    | .error _ => false
  | .error _ => false

variable {packet : List UInt8} {endpoints : DatagramEndpoints}
  {digest : MacKey → List UInt8 → List UInt8}

theorem MacSession.Authentic.verified_ok {session : MacSession} {body : List (UInt8 × List UInt8)}
    (authentic : Authentic digest session.config packet endpoints body) :
    ∃ stop, bodyEnd packet = .ok stop ∧ tlvs ((packet.take stop).drop 4) = .ok body ∧
      session.verified digest packet stop endpoints = .ok true := by
  obtain ⟨stop, data, trailer, key, framed, read, parsed, covered, configured, carried⟩ :=
    authentic.stop
  have some : trailer.any (fun tlv => decide (tlv.1 = MAC)) = true :=
    List.any_eq_true.mpr ⟨_, carried, decide_eq_true rfl⟩
  have valid : (session.config.keys.any fun key =>
      trailer.any fun tlv => decide (tlv.1 = MAC) && decide (digest key data = tlv.2)) = true :=
    List.any_eq_true.mpr ⟨key, configured, List.any_eq_true.mpr ⟨_, carried, by simp⟩⟩
  refine ⟨stop, framed, read, ?_⟩
  simp only [verified, parsed, bind, Except.bind, some, if_true, covered, pure, Except.pure, valid]

theorem MacSession.Authentic.verifies {session : MacSession} {body : List (UInt8 × List UInt8)}
    (authentic : Authentic digest session.config packet endpoints body) :
    session.verifies digest packet endpoints = true := by
  obtain ⟨stop, framed, -, valid⟩ := authentic.verified_ok
  simp only [MacSession.verifies, framed, valid]

/-! ## The world -/

structure World (Name : Type) where
  sessions : Name → MacSession
  clock : Name → UInt64
  /-- Every datagram an honest session signed, with the endpoints it was signed for. -/
  signed : List (List UInt8 × DatagramEndpoints)
  drawn : List Nonce

inductive WorldCall (Name : Type) where
  | sign (name : Name) (packet : List UInt8) (endpoints : DatagramEndpoints) (draw : Draw)
  | receive (name : Name) (packet : List UInt8) (endpoints : DatagramEndpoints) (now : UInt64)
      (draw : Draw)
  | expire (name : Name) (now : UInt64)

namespace World

variable {Name : Type} [DecidableEq Name] (digest : MacKey → List UInt8 → List UInt8)

def put (world : World Name) (name : Name) (session : MacSession) : World Name :=
  { world with sessions := Function.update world.sessions name session }

def noteDraw (world : World Name) : Draw → World Name
  | .ok value => { world with drawn := value :: world.drawn }
  | .error _ => world

def noteSigned (world : World Name) (endpoints : DatagramEndpoints) :
    Except MacError (List UInt8) → World Name
  | .ok datagram => { world with signed := (datagram, endpoints) :: world.signed }
  | .error _ => world

def setClock (world : World Name) (name : Name) (now : UInt64) : World Name :=
  { world with clock := Function.update world.clock name now }

/-- The world after a call, and the datagram it accepted, if any, with the name of the session. -/
def call (world : World Name) :
    WorldCall Name → World Name × List (Name × List UInt8 × DatagramEndpoints)
  | .sign name packet endpoints draw =>
    let made := (world.sessions name).sign digest packet endpoints draw
    (((world.put name made.1).noteDraw draw).noteSigned endpoints made.2, [])
  | .receive name packet endpoints now draw =>
    let made := (world.sessions name).receive digest packet endpoints now draw
    (((world.put name made.1).noteDraw draw).setClock name now,
      if made.2.accepted then [(name, packet, endpoints)] else [])
  | .expire name now => ((world.put name ((world.sessions name).expire now)).setClock name now, [])

/-- The draw is new, and no honest session has replied to it yet. -/
def fresh (world : World Name) : Draw → Bool
  | .ok value => decide (value ∉ world.drawn) &&
      world.signed.all fun datagram => !replies (bodyOf datagram.1) value.val
  | .error _ => true

/-- Clocks do not run back, draws are fresh, and only honest datagrams have a valid MAC. -/
def admits (world : World Name) : WorldCall Name → Bool
  | .sign _ _ _ draw => world.fresh draw
  | .receive name packet endpoints now draw =>
    world.fresh draw && decide (world.clock name ≤ now) &&
      (!(world.sessions name).verifies digest packet endpoints ||
        world.signed.any fun datagram =>
          decide (bodyBytes datagram.1 = bodyBytes packet) &&
            decide (datagram.2.wire = endpoints.wire))
  | .expire name now => decide (world.clock name ≤ now)

/-- New sessions, each with an index of its own. -/
structure Starts (world : World Name) : Prop where
  created : ∀ name, ∃ config maxPeers index,
    MacSession.new config maxPeers (.ok index) = .ok (world.sessions name) ∧ index ∈ world.drawn
  apart : ∀ left right,
    (world.sessions left).index = (world.sessions right).index → left = right
  unsigned : world.signed = []

end World

/-- The runs of a world whose calls all meet `allowed`. -/
def WorldRun {Name : Type} [DecidableEq Name] (digest : MacKey → List UInt8 → List UInt8)
    (allowed : World Name → WorldCall Name → Bool) :
    List (WorldCall Name × List (Name × List UInt8 × DatagramEndpoints)) → World Name → Prop :=
  Run World.Starts fun world call accepted next =>
    world.admits digest call = true ∧ allowed world call = true ∧
      world.call digest call = (next, accepted)

/-- Make the calls one after the other, as long as they are allowed. -/
def World.play {Name : Type} [DecidableEq Name] (digest : MacKey → List UInt8 → List UInt8)
    (allowed : World Name → WorldCall Name → Bool) (world : World Name) :
    List (WorldCall Name) →
      Option (World Name × List (WorldCall Name × List (Name × List UInt8 × DatagramEndpoints)))
  | [] => some (world, [])
  | call :: rest =>
    if world.admits digest call && allowed world call then
      (World.play digest allowed (world.call digest call).1 rest).map fun played =>
        (played.1, (call, (world.call digest call).2) :: played.2)
    else none

theorem WorldRun.play {Name : Type} [DecidableEq Name]
    {allowed : World Name → WorldCall Name → Bool}
    {before later : List (WorldCall Name × List (Name × List UInt8 × DatagramEndpoints))}
    {world final : World Name} (run : WorldRun digest allowed before world)
    {calls : List (WorldCall Name)} (played : world.play digest allowed calls = some (final, later)) :
    WorldRun digest allowed (before ++ later) final := by
  induction calls generalizing before later world with
  | nil =>
    cases played
    rwa [List.append_nil]
  | cons call rest ih =>
    simp only [World.play] at played
    split at played
    · rename_i permitted
      obtain ⟨⟨last, tail⟩, playedRest, same⟩ := Option.map_eq_some_iff.mp played
      cases same
      have step := Bool.and_eq_true_iff.mp permitted
      have longer : WorldRun digest allowed (before ++ [(call, (world.call digest call).2)])
          (world.call digest call).1 := .step run ⟨step.1, step.2, rfl⟩
      simpa using ih longer playedRest
    · cases played

variable (digest) in
theorem WorldRun.of_checked_play {Name : Type} [DecidableEq Name]
    (allowed : World Name → WorldCall Name → Bool) {world : World Name} (starts : world.Starts)
    (calls : List (WorldCall Name))
    (holds : World Name × List (WorldCall Name × List (Name × List UInt8 × DatagramEndpoints)) → Bool)
    (checked : (world.play digest allowed calls).any holds = true) :
    ∃ history final, WorldRun digest allowed history final ∧ holds (final, history) = true := by
  obtain ⟨result, played, held⟩ := (Option.any_eq_true _ _).mp checked
  exact ⟨result.2, result.1, WorldRun.play (.start starts) played, held⟩

def acceptedBy {Name : Type} [DecidableEq Name] (name : Name)
    (history : List (WorldCall Name × List (Name × List UInt8 × DatagramEndpoints))) :
    List (List UInt8 × DatagramEndpoints) :=
  (history.flatMap Prod.snd).filterMap fun accepted =>
    if accepted.1 = name then some accepted.2 else none

/-! ## Honest numbering -/

/-- A datagram as the guard of a peer sees it. -/
structure Item where
  body : List (UInt8 × List UInt8)
  wire : (IpAddr × UInt16) × IpAddr × UInt16
deriving DecidableEq

def itemOf (datagram : List UInt8 × DatagramEndpoints) : Item :=
  ⟨bodyOf datagram.1, datagram.2.wire⟩

def macLabels : Labels Item (List UInt8) Nonce where
  index item := ((packetCounter item.body).map Prod.snd).getD []
  counter item := ((packetCounter item.body).map fun label => label.1.toNat).getD 0
  channel item := item.wire.2.1.isMulticast
  answers item nonce := replies item.body nonce.val = true

variable {draw : Draw}

section Numbering
variable {Name : Type}

/-- Every honest datagram is below the next number of the session whose index it carries. -/
structure Numbered (world : World Name) : Prop where
  drawn : ∀ name, (world.sessions name).index ∈ world.drawn
  apart : ∀ left right,
    (world.sessions left).index = (world.sessions right).index → left = right
  known : ∀ datagram ∈ world.signed,
    ∃ index ∈ world.drawn, macLabels.index (itemOf datagram) = index.val
  below : ∀ datagram ∈ world.signed, ∀ name,
    macLabels.index (itemOf datagram) = (world.sessions name).index.val →
    macLabels.counter (itemOf datagram) < (world.sessions name).counter.toNat

theorem Numbered.start {world : World Name} (starts : world.Starts) : Numbered world where
  drawn name := by
    obtain ⟨config, maxPeers, index, created, drawn⟩ := starts.created name
    rw [← Except.ok.inj created]
    exact drawn
  apart := starts.apart
  known datagram member := by simp [starts.unsigned] at member
  below datagram member := by simp [starts.unsigned] at member

theorem Numbered.congr {world next : World Name} (numbered : Numbered world)
    (indices : ∀ name, (next.sessions name).index = (world.sessions name).index)
    (counters : ∀ name, (world.sessions name).counter ≤ (next.sessions name).counter)
    (signed : next.signed = world.signed) (drawn : world.drawn ⊆ next.drawn) : Numbered next where
  drawn name := indices name ▸ drawn (numbered.drawn name)
  apart left right same :=
    numbered.apart left right (indices left ▸ indices right ▸ same)
  known datagram member := by
    obtain ⟨index, inDrawn, same⟩ := numbered.known datagram (signed ▸ member)
    exact ⟨index, drawn inDrawn, same⟩
  below datagram member name same := by
    rw [indices] at same
    exact Nat.lt_of_lt_of_le (numbered.below datagram (signed ▸ member) name same)
      (UInt32.le_iff_toNat_le.mp (counters name))

variable {world : World Name} {name : Name}

theorem World.subset_noteDraw (world : World Name) (draw : Draw) :
    world.drawn ⊆ (world.noteDraw draw).drawn := by
  cases draw with
  | ok value => exact List.subset_cons_self _ _
  | error error => exact List.Subset.refl _

theorem World.fresh_ok {value : Nonce} (fresh : world.fresh (.ok value) = true) :
    value ∉ world.drawn ∧
      ∀ item ∈ world.signed.map itemOf, ¬ macLabels.answers item value := by
  simp only [World.fresh, Bool.and_eq_true, decide_eq_true_eq, List.all_eq_true,
    Bool.not_eq_true'] at fresh
  refine ⟨fresh.1, fun item member => ?_⟩
  obtain ⟨datagram, inSigned, rfl⟩ := List.mem_map.mp member
  simp [macLabels, itemOf, fresh.2 datagram inSigned]

/-- The index is kept, or replaced by a new draw with the counter back at zero. -/
theorem renewed_cases {session numberer : MacSession} (renews : session.renewed draw = .ok numberer) :
    numberer.counter ≠ 0xffffffff ∧ numberer.peers = session.peers ∧
      numberer.config = session.config ∧
      (numberer = session ∨ ∃ index, draw = .ok index ∧ numberer.index = index) := by
  unfold renewed at renews
  split at renews
  · cases draw with
    | error error => cases renews
    | ok index =>
      cases renews
      exact ⟨show (0 : UInt32) ≠ 0xffffffff by decide, rfl, rfl, .inr ⟨index, rfl, rfl⟩⟩
  · rename_i spare
    cases renews
    exact ⟨spare, rfl, rfl, .inl rfl⟩

variable [DecidableEq Name]

theorem Numbered.renew (numbered : Numbered world) {numberer : MacSession}
    (fresh : world.fresh draw = true) (renews : (world.sessions name).renewed draw = .ok numberer) :
    Numbered ((world.put name numberer).noteDraw draw) := by
  obtain ⟨-, -, -, rfl | ⟨index, rfl, rfl⟩⟩ := renewed_cases renews
  · have same : world.put name (world.sessions name) = world := by
      simp [World.put]
    rw [same]
    exact numbered.congr (fun _ => by cases draw <;> rfl)
      (fun _ => by cases draw <;> exact UInt32.le_refl _) (by cases draw <;> rfl)
      (world.subset_noteDraw draw)
  · have unseen := (World.fresh_ok fresh).1
    have others : ∀ other, (((world.put name numberer).noteDraw (.ok numberer.index)).sessions
        other) = if other = name then numberer else world.sessions other := by
      intro other
      simp [World.put, World.noteDraw, Function.update_apply]
    -- a new index is carried by no datagram and by no other session
    refine ⟨fun other => ?_, fun left right same => ?_, fun datagram member => ?_,
      fun datagram member other same => ?_⟩
    · rw [others]
      split
      · exact List.mem_cons_self
      · exact List.mem_cons_of_mem _ (numbered.drawn other)
    · rw [others, others] at same
      split at same <;> split at same
      · rename_i here there
        exact here.trans there.symm
      · exact absurd (same ▸ numbered.drawn right) unseen
      · exact absurd (same ▸ numbered.drawn left) unseen
      · exact numbered.apart left right same
    · obtain ⟨index, inDrawn, carried⟩ := numbered.known datagram member
      exact ⟨index, List.mem_cons_of_mem _ inDrawn, carried⟩
    · rw [others] at same ⊢
      split at same
      · obtain ⟨index, inDrawn, carried⟩ := numbered.known datagram member
        have equal : index = numberer.index := Subtype.ext (carried.symm.trans same)
        exact absurd (equal ▸ inDrawn) unseen
      · rename_i apart
        rw [if_neg apart]
        exact numbered.below datagram member other same

theorem toNat_add_one {counter : UInt32} (spare : counter ≠ 0xffffffff) :
    (counter + 1).toNat = counter.toNat + 1 := by
  have bound := counter.toNat_lt
  have apart : counter.toNat ≠ 0xffffffff := fun same => spare (UInt32.toNat_inj.mp same)
  exact Nat.mod_eq_of_lt (by change counter.toNat + 1 < 2 ^ 32; omega)

theorem Numbered.spend (numbered : Numbered world)
    (spare : (world.sessions name).counter ≠ 0xffffffff) :
    Numbered (world.put name
      { world.sessions name with counter := (world.sessions name).counter + 1 }) := by
  refine numbered.congr (fun other => ?_) (fun other => ?_) rfl (List.Subset.refl _)
  · by_cases here : other = name
    · subst here
      simp [World.put]
    · simp [World.put, here]
  · by_cases here : other = name
    · subst here
      simp [World.put, UInt32.le_iff_toNat_le, toNat_add_one spare]
    · simp [World.put, here]

theorem Numbered.sign (numbered : Numbered world)
    (spare : (world.sessions name).counter ≠ 0xffffffff) {datagram : List UInt8}
    (signed : SignedBy digest (world.sessions name) packet endpoints datagram) :
    Numbered ((world.put name
        { world.sessions name with counter := (world.sessions name).counter + 1 }).noteSigned
      endpoints (.ok datagram)) ∧
      macLabels.Exceeds (world.signed.map itemOf) (itemOf (datagram, endpoints)) := by
  have spent := numbered.spend spare
  have label := signed.packetCounter_eq
  have index : macLabels.index (itemOf (datagram, endpoints)) =
      (world.sessions name).index.val := by simp [macLabels, itemOf, label]
  have counter : macLabels.counter (itemOf (datagram, endpoints)) =
      (world.sessions name).counter.toNat := by simp [macLabels, itemOf, label]
  refine ⟨⟨spent.drawn, spent.apart, fun other member => ?_, fun other member who same => ?_⟩, ?_⟩
  · rcases List.mem_cons.mp member with rfl | old
    · exact ⟨_, numbered.drawn name, index⟩
    · exact spent.known other old
  · rcases List.mem_cons.mp member with rfl | old
    · have indices : ∀ other, ((world.put name { world.sessions name with
          counter := (world.sessions name).counter + 1 }).sessions other).index =
          (world.sessions other).index := by
        intro other
        by_cases here : other = name
        · subst here; simp [World.put]
        · simp [World.put, here]
      have sameIndex : (world.sessions who).index = (world.sessions name).index :=
        Subtype.ext ((indices who ▸ same).symm.trans index)
      obtain rfl := numbered.apart who name sameIndex
      rw [counter]
      simp [World.put, World.noteSigned, toNat_add_one spare]
    · exact spent.below other old who same
  · intro earlier member same
    obtain ⟨other, old, rfl⟩ := List.mem_map.mp member
    rw [counter]
    exact numbered.below other old name (same.trans index)

end Numbering

/-! ## The guard of a peer -/

/-- What a session remembers of a peer, without a challenge that has expired. -/
def guardOf (clock : UInt64) : Option MacPeer → ReplayGuard (List UInt8) Nonce
  | none => blank
  | some peer =>
    ⟨peer.index, fun channel => (peer.counter channel).toNat,
      peer.nonce.bind fun outstanding =>
        if clock < outstanding.2 then some outstanding.1 else none⟩

theorem guardOf_met (clock now : UInt64) : guardOf clock (some (.met now)) = blank := by
  simp only [guardOf, blank, MacPeer.met, Option.bind_none, ReplayGuard.mk.injEq, true_and,
    and_true]
  funext channel
  cases channel <;> rfl

theorem guardOf_answered (now expires : UInt64) (lastReply : Option UInt64) (pc : UInt32)
    (index : List UInt8) :
    guardOf now (some ⟨some index, pc, pc, none, lastReply, expires⟩) =
      ⟨some index, fun _ => pc.toNat, none⟩ := by
  simp only [guardOf, Option.bind_none, ReplayGuard.mk.injEq, true_and, and_true]
  funext channel
  cases channel <;> rfl

theorem guardOf_counted (now expires : UInt64) (peer : MacPeer) (lastReply : Option UInt64)
    (pc : UInt32) (multicast : Bool) :
    guardOf now (some { peer with
      lastReply
      multicast := if multicast then pc else peer.multicast
      unicast := if multicast then peer.unicast else pc
      expires }) =
      { guardOf now (some peer) with
        counter := fun channel =>
          if channel = multicast then pc.toNat
          else (guardOf now (some peer)).counter channel } := by
  simp only [guardOf, ReplayGuard.mk.injEq, true_and, and_true]
  funext channel
  cases channel <;> cases multicast <;> rfl

section Guards
variable {ledger accepted : List Item} {session next : MacSession}
  {body : List (UInt8 × List UInt8)} {endpoints : DatagramEndpoints} {now clock : UInt64}
  {draw : Draw} {peer : MacPeer} {reception : MacReception}

/-- Time passes: the challenge may expire, and so may the record itself. -/
theorem holds_aged {record : Option MacPeer} (later : clock ≤ now)
    (holds : Holds macLabels ledger accepted (guardOf clock record)) (p : MacPeer → Bool) :
    Holds macLabels ledger accepted (guardOf now (record.filter p)) := by
  cases record with
  | none => exact holds
  | some peer =>
    by_cases kept : p peer = true
    · rw [Option.filter_some, if_pos kept]
      cases outstanding : peer.nonce with
      | none => simpa only [guardOf, outstanding, Option.bind_none] using holds
      | some challenge =>
        simp only [guardOf, outstanding, Option.bind_some] at holds ⊢
        by_cases live : now < challenge.2
        · rw [if_pos live]
          rwa [if_pos (UInt64.lt_of_le_of_lt later live)] at holds
        · rw [if_neg live]
          exact holds.lapse
    · rw [Option.filter_some, if_neg kept]
      exact holds.forget

/-- The body answers the outstanding challenge under the index the peer already holds, with a
counter below one of the peer's. -/
def rewinds (peer : MacPeer) (body : List (UInt8 × List UInt8)) (now : UInt64) : Bool :=
  success body peer now &&
    match packetCounter body with
    | some (pc, carried) =>
      decide (peer.index = some carried) &&
        (decide (pc < peer.unicast) || decide (pc < peer.multicast))
    | none => false

theorem counter_le_of_not_rewinds {pc : UInt32} {index : List UInt8}
    (forward : rewinds peer body now = false) (answers : success body peer now = true)
    (labelled : packetCounter body = some (pc, index)) (current : peer.index = some index)
    (channel : Bool) : (peer.counter channel).toNat ≤ pc.toNat := by
  simp only [rewinds, answers, labelled, current, decide_true, Bool.true_and,
    Bool.or_eq_false_iff, decide_eq_false_iff_not, UInt32.not_lt, UInt32.le_iff_toNat_le]
    at forward
  cases channel
  · exact forward.1
  · exact forward.2

theorem outcome_holds
    (outcome : Outcome session body endpoints now draw peer next reception)
    (holds : Holds macLabels ledger accepted (guardOf now (some peer)))
    (signed : (⟨body, endpoints.wire⟩ : Item) ∈ ledger)
    (fresh : ∀ nonce, draw = .ok nonce → ∀ item ∈ ledger, ¬ macLabels.answers item nonce)
    (forward : rewinds peer body now = false) :
    ∃ after, next.peers = session.peers.insert endpoints.source after ∧
      Holds macLabels ledger
        (accepted ++ if reception.accepted then [⟨body, endpoints.wire⟩] else [])
        (guardOf now (some after)) := by
  cases outcome with
  | kept refused silent =>
    refine ⟨_, rfl, ?_⟩
    rw [refused, if_neg Bool.false_ne_true, List.append_nil]
    exact holds
  | challenged drawn labelled unproved noAnswer refused issued =>
    refine ⟨_, rfl, ?_⟩
    rename_i nonce pc index
    rw [refused, if_neg Bool.false_ne_true, List.append_nil]
    have challenged := holds.challenge (fresh nonce drawn)
    simp only [guardOf, Option.bind_some]
    split
    · exact challenged
    · exact challenged.lapse
  | answered labelled answers acceptedHere silent =>
    refine ⟨_, rfl, ?_⟩
    rename_i pc index
    rw [acceptedHere, if_pos rfl]
    unfold success at answers
    split at answers
    · rename_i nonce expires outstanding
      obtain ⟨live, replied⟩ := Bool.and_eq_true_iff.mp answers
      have current : (guardOf now (some peer)).nonce = some nonce := by
        simp only [guardOf, outstanding, Option.bind_some]
        rw [if_pos (of_decide_eq_true live)]
      have index_eq : macLabels.index ⟨body, endpoints.wire⟩ = index := by
        simp [macLabels, labelled]
      have counter_eq : macLabels.counter ⟨body, endpoints.wire⟩ = pc.toNat := by
        simp [macLabels, labelled]
      have onward : (guardOf now (some peer)).index =
          some (macLabels.index ⟨body, endpoints.wire⟩) →
          ∀ channel, (guardOf now (some peer)).counter channel ≤
            macLabels.counter ⟨body, endpoints.wire⟩ := by
        intro same channel
        have succeeds : success body peer now = true := by
          simp only [success, outstanding, live, replied, Bool.and_self]
        rw [counter_eq]
        exact counter_le_of_not_rewinds forward succeeds labelled (index_eq ▸ same) channel
      have result := holds.answer signed current replied onward
      rw [index_eq, counter_eq] at result
      rw [guardOf_answered]
      exact result
    · cases answers
  | counted labelled noAnswer current above acceptedHere silent =>
    refine ⟨_, rfl, ?_⟩
    rename_i pc index
    rw [acceptedHere, if_pos rfl]
    have index_eq : macLabels.index ⟨body, endpoints.wire⟩ = index := by
      simp [macLabels, labelled]
    have counter_eq : macLabels.counter ⟨body, endpoints.wire⟩ = pc.toNat := by
      simp [macLabels, labelled]
    have channel_eq : macLabels.channel ⟨body, endpoints.wire⟩ = endpoints.multicast := rfl
    have unanswered : ∀ nonce, (guardOf now (some peer)).nonce = some nonce →
        ¬ macLabels.answers ⟨body, endpoints.wire⟩ nonce := by
      intro nonce outstanding replied
      simp only [guardOf, Option.bind_eq_some_iff] at outstanding
      obtain ⟨⟨stored, expires⟩, known, live⟩ := outstanding
      split at live
      · rename_i before
        obtain rfl := Option.some.inj live
        have succeeds : success body peer now = true := by
          simp only [success, known, Bool.and_eq_true, decide_eq_true_eq]
          exact ⟨before, replied⟩
        rw [noAnswer] at succeeds
        cases succeeds
      · cases live
    have result := holds.count signed (index_eq.symm ▸ current)
      (by rw [counter_eq, channel_eq]; exact UInt32.lt_iff_toNat_lt.mp above) unanswered
    rw [counter_eq, channel_eq] at result
    rw [guardOf_counted]
    exact result

end Guards

/-! ## Runs -/

section Runs
variable {Name : Type} [DecidableEq Name] {digest : MacKey → List UInt8 → List UInt8}

abbrev WorldHistory (Name : Type) :=
  List (WorldCall Name × List (Name × List UInt8 × DatagramEndpoints))

/-- The call does not hand a session an answer that turns back the index of its peer. -/
def World.forward (digest : MacKey → List UInt8 → List UInt8) (world : World Name) :
    WorldCall Name → Bool
  | .receive name packet endpoints now _ =>
    !((world.sessions name).verifies digest packet endpoints &&
      ((world.sessions name).peers.get? endpoints.source).any fun peer =>
        rewinds peer (bodyOf packet) now)
  | _ => true

variable {name : Name} {now : UInt64}

omit [DecidableEq Name] in
theorem World.not_rewinds {world : World Name} {peer : MacPeer}
    (forward : world.forward digest (.receive name packet endpoints now draw) = true)
    (valid : (world.sessions name).verifies digest packet endpoints = true)
    (known : (world.sessions name).peers.get? endpoints.source = some peer) :
    rewinds peer (bodyOf packet) now = false := by
  simpa [World.forward, valid, known] using forward

def acceptedFrom (name : Name) (source : SocketAddr) (history : WorldHistory Name) : List Item :=
  ((acceptedBy name history).filter fun datagram => datagram.2.source = source).map itemOf

/-- The guards of all strict sessions hold. -/
def Guarded (world : World Name) (history : WorldHistory Name) : Prop :=
  ∀ name, (world.sessions name).config.isStrict = true → ∀ source,
    Holds macLabels (world.signed.map itemOf) (acceptedFrom name source history)
      (guardOf (world.clock name) ((world.sessions name).peers.get? source))

theorem acceptedFrom_concat (name : Name) (source : SocketAddr) (history : WorldHistory Name)
    (call : WorldCall Name) (accepted : List (Name × List UInt8 × DatagramEndpoints)) :
    acceptedFrom name source (history ++ [(call, accepted)]) =
      acceptedFrom name source history ++ acceptedFrom name source [(call, accepted)] := by
  simp [acceptedFrom, acceptedBy]

theorem acceptedFrom_nothing (name : Name) (source : SocketAddr) (call : WorldCall Name) :
    acceptedFrom name source [(call, [])] = [] := rfl

theorem acceptedFrom_one (name who : Name) (source : SocketAddr) (call : WorldCall Name)
    (packet : List UInt8) (endpoints : DatagramEndpoints) :
    acceptedFrom name source [(call, [(who, packet, endpoints)])] =
      if who = name ∧ endpoints.source = source then [itemOf (packet, endpoints)] else [] := by
  by_cases same : who = name
  · by_cases here : endpoints.source = source <;> simp [acceptedFrom, acceptedBy, same, here]
  · simp [acceptedFrom, acceptedBy, same]

theorem Guarded.start {world : World Name} (starts : world.Starts) : Guarded world [] := by
  intro name _ source
  obtain ⟨config, maxPeers, index, created, -⟩ := starts.created name
  rw [← Except.ok.inj created]
  exact Holds.nothing

variable (digest) in
theorem receive_numbers (session : MacSession) (packet : List UInt8)
    (endpoints : DatagramEndpoints) (now : UInt64) (draw : Draw) :
    (session.receive digest packet endpoints now draw).1.index = session.index ∧
      (session.receive digest packet endpoints now draw).1.counter = session.counter ∧
      (session.receive digest packet endpoints now draw).1.config = session.config := by
  have decided : ∀ (aged : MacSession) body peer controls,
      (aged.decideOn body endpoints now draw peer controls).1.index = aged.index ∧
      (aged.decideOn body endpoints now draw peer controls).1.counter = aged.counter ∧
      (aged.decideOn body endpoints now draw peer controls).1.config = aged.config := by
    intro aged body peer controls
    unfold decideOn
    repeat' split
    all_goals exact ⟨rfl, rfl, rfl⟩
  have processed : ∀ (aged : MacSession) stop,
      (aged.process packet stop endpoints now draw).1.index = aged.index ∧
      (aged.process packet stop endpoints now draw).1.counter = aged.counter ∧
      (aged.process packet stop endpoints now draw).1.config = aged.config := by
    intro aged stop
    unfold process
    repeat' split
    all_goals first | exact ⟨rfl, rfl, rfl⟩ | exact decided _ _ _ _
  have received : (session.receive digest packet endpoints now draw).1 =
      ((session.expire now).receiveInner digest packet endpoints now draw).1 := by
    unfold receive
    split <;> simp_all
  have inner : ((session.expire now).receiveInner digest packet endpoints now draw).1.index =
        session.index ∧
      ((session.expire now).receiveInner digest packet endpoints now draw).1.counter =
        session.counter ∧
      ((session.expire now).receiveInner digest packet endpoints now draw).1.config =
        session.config := by
    unfold receiveInner
    repeat' split
    all_goals first | exact ⟨rfl, rfl, rfl⟩ | exact processed _ _
  rw [received]
  exact inner

variable {world next : World Name} {history : WorldHistory Name}

variable (digest) in
theorem sign_next (session : MacSession) (packet : List UInt8) (endpoints : DatagramEndpoints)
    (draw : Draw) :
    (session.sign digest packet endpoints draw).1 = session ∧
        (∃ error, (session.sign digest packet endpoints draw).2 = .error error) ∨
      ∃ numberer, session.renewed draw = .ok numberer ∧
        (session.sign digest packet endpoints draw).1 =
          { numberer with counter := numberer.counter + 1 } ∧
        ∀ datagram, (session.sign digest packet endpoints draw).2 = .ok datagram →
          SignedBy digest numberer packet endpoints datagram := by
  cases made : session.sign digest packet endpoints draw with
  | mk next result =>
    cases result with
    | ok datagram =>
      obtain ⟨numberer, renews, rfl, signed⟩ := sign_eq_ok made
      exact .inr ⟨numberer, renews, rfl, fun other same => Except.ok.inj same ▸ signed⟩
    | error error =>
      unfold MacSession.sign at made
      split at made
      · exact .inl ⟨(Prod.mk.inj made).1.symm, error, rfl⟩
      · cases renews : session.renewed draw with
        | error failure =>
          rw [renews] at made
          exact .inl ⟨(Prod.mk.inj made).1.symm, error, rfl⟩
        | ok numberer =>
          rw [renews] at made
          exact .inr ⟨numberer, rfl, (Prod.mk.inj made).1.symm,
            fun _ impossible => by cases impossible⟩

/-- Signing keeps the numbers apart, and what is signed exceeds what was signed before. -/
theorem Numbered.call_sign (numbered : Numbered world) (fresh : world.fresh draw = true) :
    Numbered (world.call digest (.sign name packet endpoints draw)).1 ∧
      ∀ datagram,
        ((world.sessions name).sign digest packet endpoints draw).2 = .ok datagram →
        macLabels.Exceeds (world.signed.map itemOf) (itemOf (datagram, endpoints)) := by
  simp only [World.call]
  rcases sign_next digest (world.sessions name) packet endpoints draw with
    ⟨same, error, failed⟩ | ⟨numberer, renews, next, signs⟩
  · rw [same, failed]
    have unmoved : world.put name (world.sessions name) = world := by simp [World.put]
    rw [unmoved]
    refine ⟨?_, fun datagram impossible => by cases impossible⟩
    exact numbered.congr (fun _ => by cases draw <;> rfl)
      (fun _ => by cases draw <;> exact UInt32.le_refl _) (by cases draw <;> rfl)
      (world.subset_noteDraw draw)
  · have renewed := numbered.renew fresh renews
    have spare := (renewed_cases renews).1
    generalize middle : (world.put name numberer).noteDraw draw = between at renewed
    have here : between.sessions name = numberer := by
      rw [← middle]
      cases draw <;> simp [World.put, World.noteDraw]
    have sameSigned : between.signed = world.signed := by
      rw [← middle]
      cases draw <;> rfl
    have after : (world.put name { numberer with counter := numberer.counter + 1 }).noteDraw draw =
        between.put name { between.sessions name with
          counter := (between.sessions name).counter + 1 } := by
      rw [here, ← middle]
      cases draw <;> simp [World.put, World.noteDraw]
    rw [next, after]
    cases result : ((world.sessions name).sign digest packet endpoints draw).2 with
    | error error => exact ⟨renewed.spend (here ▸ spare), fun _ impossible => by cases impossible⟩
    | ok datagram =>
      obtain ⟨numbers, exceeds⟩ := renewed.sign (here ▸ spare) (here ▸ signs datagram result)
      refine ⟨numbers, fun other same => ?_⟩
      rw [← Except.ok.inj same, ← sameSigned]
      exact exceeds

theorem Guarded.call_sign (guarded : Guarded world history) (exceeds : ∀ datagram,
      ((world.sessions name).sign digest packet endpoints draw).2 = .ok datagram →
      macLabels.Exceeds (world.signed.map itemOf) (itemOf (datagram, endpoints))) :
    Guarded (world.call digest (.sign name packet endpoints draw)).1
      (history ++ [(.sign name packet endpoints draw, [])]) := by
  intro who strict source
  rw [acceptedFrom_concat, acceptedFrom_nothing, List.append_nil]
  obtain ⟨samePeers, sameConfig, -⟩ := sign_peers digest (world.sessions name) packet endpoints draw
  have sessions : ∀ result : Except MacError (List UInt8),
      ((((world.put name ((world.sessions name).sign digest packet endpoints draw).1).noteDraw
        draw).noteSigned endpoints result).sessions who).peers = (world.sessions who).peers ∧
      ((((world.put name ((world.sessions name).sign digest packet endpoints draw).1).noteDraw
        draw).noteSigned endpoints result).sessions who).config = (world.sessions who).config := by
    intro result
    by_cases here : who = name
    · subst here
      cases draw <;> cases result <;>
        simpa [World.put, World.noteDraw, World.noteSigned] using ⟨samePeers, sameConfig⟩
    · cases draw <;> cases result <;> simp [World.put, World.noteDraw, World.noteSigned, here]
  simp only [World.call] at strict ⊢
  rw [(sessions _).2] at strict
  rw [(sessions _).1]
  have before := guarded who strict source
  cases result : ((world.sessions name).sign digest packet endpoints draw).2 with
  | error error => cases draw <;> exact before
  | ok datagram =>
    have grown := before.sign (exceeds datagram result)
    cases draw <;> exact grown

theorem Numbered.call_other (numbered : Numbered world) {call : WorldCall Name}
    (other : ∀ name packet endpoints draw, call ≠ .sign name packet endpoints draw) :
    Numbered (world.call digest call).1 := by
  cases call with
  | sign name packet endpoints draw => exact absurd rfl (other name packet endpoints draw)
  | expire name now =>
    refine numbered.congr (fun who => ?_) (fun who => ?_) rfl (List.Subset.refl _) <;>
      by_cases here : who = name
    · subst here; simp [World.call, World.put, World.setClock, MacSession.expire]
    · simp [World.call, World.put, World.setClock, here]
    · subst here; simp [World.call, World.put, World.setClock, MacSession.expire]
    · simp [World.call, World.put, World.setClock, here]
  | receive name packet endpoints now draw =>
    obtain ⟨index, counter, -⟩ :=
      receive_numbers digest (world.sessions name) packet endpoints now draw
    have sessions : ∀ who, ((world.call digest (.receive name packet endpoints now draw)).1.sessions
        who) = if who = name
          then ((world.sessions name).receive digest packet endpoints now draw).1
          else world.sessions who := by
      intro who
      cases draw <;>
        simp [World.call, World.put, World.setClock, World.noteDraw, Function.update_apply]
    refine numbered.congr (fun who => ?_) (fun who => ?_) (by cases draw <;> rfl) ?_
    · rw [sessions]
      split
      · rename_i here
        rw [here]; exact index
      · rfl
    · rw [sessions]
      split
      · rename_i here
        rw [here, counter]
        exact UInt32.le_refl _
      · exact UInt32.le_refl _
    · cases draw with
      | ok value => exact List.subset_cons_self _ _
      | error error => exact List.Subset.refl _

omit [DecidableEq Name] in
theorem World.admits_receive
    (admitted : world.admits digest (.receive name packet endpoints now draw) = true) :
    world.fresh draw = true ∧ world.clock name ≤ now ∧
      ((world.sessions name).verifies digest packet endpoints = true →
        itemOf (packet, endpoints) ∈ world.signed.map itemOf) := by
  simp only [World.admits, Bool.and_eq_true, Bool.or_eq_true, Bool.not_eq_true',
    decide_eq_true_eq, List.any_eq_true] at admitted
  refine ⟨admitted.1.1, admitted.1.2, fun valid => ?_⟩
  rcases admitted.2 with invalid | ⟨datagram, inSigned, sameBody, sameWire⟩
  · rw [invalid] at valid
    cases valid
  · refine List.mem_map.mpr ⟨datagram, inSigned, ?_⟩
    simp only [itemOf, bodyOf_eq_of_bodyBytes sameBody, sameWire]

/-- The guard of one source through a receive of a strict session. -/
theorem holds_receive {session : MacSession} {ledger accepted : List Item} {clock : UInt64}
    {source : SocketAddr} (strict : session.config.isStrict = true) (later : clock ≤ now)
    (holds : Holds macLabels ledger accepted (guardOf clock (session.peers.get? source)))
    (signed : session.verifies digest packet endpoints = true → itemOf (packet, endpoints) ∈ ledger)
    (fresh : ∀ nonce, draw = .ok nonce → ∀ item ∈ ledger, ¬ macLabels.answers item nonce)
    (forward : ∀ peer, session.verifies digest packet endpoints = true →
      session.peers.get? endpoints.source = some peer →
      rewinds peer (bodyOf packet) now = false) :
    Holds macLabels ledger
      (accepted ++ if (session.receive digest packet endpoints now draw).2.accepted = true ∧
        endpoints.source = source then [itemOf (packet, endpoints)] else [])
      (guardOf now ((session.receive digest packet endpoints now draw).1.peers.get? source)) := by
  have aged : Holds macLabels ledger accepted
      (guardOf now ((session.expire now).peers.get? source)) := by
    rw [MacSession.expire, AssocMap.get?_retain]
    exact holds_aged later holds _
  rcases receive_cases digest strict packet endpoints now draw with
    quiet | ⟨body, peer, authentic, met, outcome⟩
  · rw [quiet]
    simpa using aged
  · obtain rfl := bodyOf_authentic authentic
    by_cases here : endpoints.source = source
    · subst here
      have judged : Holds macLabels ledger accepted (guardOf now (some peer)) := by
        cases met with
        | again known => rwa [known] at aged
        | first unknown room =>
          rw [unknown] at aged
          rw [guardOf_met]
          exact aged
      have onward : rewinds peer (bodyOf packet) now = false := by
        cases met with
        | again known => exact forward peer authentic.verifies (get?_expire.mp known).1
        | first unknown room => rfl
      obtain ⟨after, stored, result⟩ :=
        outcome_holds outcome judged (signed authentic.verifies) fresh onward
      rw [stored, AssocMap.get?_insert_self]
      simp only [and_true]
      exact result
    · have others : (session.receive digest packet endpoints now draw).1.peers.get? source =
          (session.expire now).peers.get? source := by
        obtain ⟨after, stored⟩ := outcome.stored
        rw [stored, AssocMap.get?_insert_of_ne _ _ here]
      rw [others]
      simpa [here] using aged

theorem Guarded.call_receive (guarded : Guarded world history)
    (admitted : world.admits digest (.receive name packet endpoints now draw) = true)
    (forward : world.forward digest (.receive name packet endpoints now draw) = true) :
    Guarded (world.call digest (.receive name packet endpoints now draw)).1
      (history ++ [(.receive name packet endpoints now draw,
        (world.call digest (.receive name packet endpoints now draw)).2)]) := by
  obtain ⟨fresh, later, signed⟩ := World.admits_receive admitted
  have unanswered : ∀ nonce, draw = .ok nonce →
      ∀ item ∈ world.signed.map itemOf, ¬ macLabels.answers item nonce := by
    rintro nonce rfl
    exact (World.fresh_ok fresh).2
  have sameSigned : (world.call digest (.receive name packet endpoints now draw)).1.signed =
      world.signed := by cases draw <;> rfl
  have sessions : ∀ who, (world.call digest (.receive name packet endpoints now draw)).1.sessions
      who = if who = name then ((world.sessions name).receive digest packet endpoints now draw).1
        else world.sessions who := by
    intro who
    cases draw <;>
      simp [World.call, World.put, World.setClock, World.noteDraw, Function.update_apply]
  have clocks : ∀ who, (world.call digest (.receive name packet endpoints now draw)).1.clock who =
      if who = name then now else world.clock who := by
    intro who
    cases draw <;>
      simp [World.call, World.put, World.setClock, World.noteDraw, Function.update_apply]
  intro who strict source
  rw [acceptedFrom_concat, sameSigned, sessions, clocks]
  rw [sessions] at strict
  have outputs : acceptedFrom who source [(.receive name packet endpoints now draw,
      (world.call digest (.receive name packet endpoints now draw)).2)] =
      if who = name then
        if ((world.sessions name).receive digest packet endpoints now draw).2.accepted = true ∧
          endpoints.source = source then [itemOf (packet, endpoints)] else []
      else [] := by
    simp only [World.call]
    by_cases accepted :
        ((world.sessions name).receive digest packet endpoints now draw).2.accepted = true
    · rw [if_pos accepted, acceptedFrom_one]
      by_cases here : who = name
      · simp [here, accepted]
      · simp [here, Ne.symm here]
    · rw [if_neg accepted, acceptedFrom_nothing]
      simp [accepted]
  rw [outputs]
  by_cases here : who = name
  · subst here
    rw [if_pos rfl, (receive_numbers digest _ packet endpoints now draw).2.2] at strict
    simp only [if_true]
    exact holds_receive strict later (guarded who strict source) signed unanswered
      fun _ valid known => World.not_rewinds forward valid known
  · rw [if_neg here] at strict
    simp only [if_neg here, List.append_nil]
    exact guarded who strict source

theorem Guarded.call_expire (guarded : Guarded world history) (later : world.clock name ≤ now) :
    Guarded (world.call digest (.expire name now)).1 (history ++ [(.expire name now, [])]) := by
  intro who strict source
  rw [acceptedFrom_concat, acceptedFrom_nothing, List.append_nil]
  by_cases here : who = name
  · subst here
    simp only [World.call, World.put, World.setClock, Function.update_self] at strict ⊢
    rw [MacSession.expire, AssocMap.get?_retain]
    exact holds_aged later (guarded who strict source) _
  · simp only [World.call, World.put, World.setClock, Function.update_of_ne here] at strict ⊢
    exact guarded who strict source

theorem WorldRun.guarded (run : WorldRun digest (World.forward digest) history world) :
    Numbered world ∧ Guarded world history := by
  refine Run.invariant (fun history world => Numbered world ∧ Guarded world history)
    (fun world starts => ⟨.start starts, .start starts⟩) ?_ run
  rintro history world call accepted next ⟨numbered, guarded⟩ ⟨admitted, forward, taken⟩
  have sameNext : (world.call digest call).1 = next := congrArg Prod.fst taken
  have sameOut : (world.call digest call).2 = accepted := congrArg Prod.snd taken
  subst sameNext sameOut
  cases call with
  | sign name packet endpoints draw =>
    obtain ⟨numbers, exceeds⟩ := numbered.call_sign admitted
    exact ⟨numbers, guarded.call_sign exceeds⟩
  | receive name packet endpoints now draw =>
    exact ⟨numbered.call_other fun _ _ _ _ same => (by cases same),
      guarded.call_receive admitted forward⟩
  | expire name now =>
    exact ⟨numbered.call_other fun _ _ _ _ same => (by cases same),
      guarded.call_expire (of_decide_eq_true admitted)⟩

end Runs

/-- Distinct once split by a function, distinct altogether. -/
theorem nodup_of_nodup_filter {α β : Type} [DecidableEq α] [DecidableEq β] (f : α → β)
    {items : List α} (parts : ∀ value, (items.filter fun item => f item = value).Nodup) :
    items.Nodup := by
  refine List.nodup_iff_count_le_one.mpr fun item => ?_
  have bound := List.nodup_iff_count_le_one.mp (parts (f item)) item
  rwa [List.count_filter (by simp)] at bound

/-- As long as no answer to a challenge turns a peer's own index back, no strict session
accepts a datagram twice. -/
theorem no_datagram_accepted_twice {Name : Type} [DecidableEq Name]
    {digest : MacKey → List UInt8 → List UInt8} {history : WorldHistory Name} {world : World Name}
    (run : WorldRun digest (World.forward digest) history world) (name : Name)
    (strict : (world.sessions name).config.isStrict = true) :
    (acceptedBy name history).Nodup := by
  refine nodup_of_nodup_filter (fun datagram => datagram.2.source) fun source => ?_
  exact List.Nodup.of_map itemOf (run.guarded.2 name strict source).once

/-! ## A rewound peer -/

namespace Handshake

/-- Alice restarted: `former` is the session she had before. -/
inductive Party where
  | former
  | alice
  | bob
deriving DecidableEq

def index : Party → UInt8
  | .former => 1
  | .alice => 2
  | .bob => 3

def world : World Party where
  sessions party := session (index party)
  clock _ := 0
  signed := []
  drawn := [nonce 1, nonce 2, nonce 3]

theorem world_starts : world.Starts where
  created party := by
    refine ⟨config, 16, nonce (index party), rfl, ?_⟩
    cases party <;> decide
  apart left right same := by
    have octets := congrArg (fun value => value.val.head?) same
    revert octets
    cases left <;> cases right <;> decide
  unsigned := rfl

/-- What Alice's present session signs, in order. -/
def first : MacSession × List UInt8 := send (session 2) hello

def firstReply : MacSession × List UInt8 := send first.1 (reply 8)

def secondReply : MacSession × List UInt8 := send firstReply.1 (reply 9)

def later : MacSession × List UInt8 := send secondReply.1 hello

/-- A datagram of the former session provokes a second challenge; its answer is overtaken by
the next datagram, which is then delivered once more. -/
def overtaken : List (WorldCall Party) :=
  [ .sign .former hello toBob (.error .entropy),
    .sign .alice hello toBob (.error .entropy),
    .receive .bob first.2 toBob 0 (.ok (nonce 8)),
    .sign .alice (reply 8) toBob (.error .entropy),
    .receive .bob firstReply.2 toBob 10 (.error .entropy),
    .receive .bob (send (session 1) hello).2 toBob 400 (.ok (nonce 9)),
    .sign .alice (reply 9) toBob (.error .entropy),
    .sign .alice hello toBob (.error .entropy),
    .receive .bob later.2 toBob 410 (.error .entropy),
    .receive .bob secondReply.2 toBob 420 (.error .entropy),
    .receive .bob later.2 toBob 430 (.error .entropy) ]

end Handshake

open Handshake in
theorem overtaken_answer_reopens_replay :
    ∃ (history : WorldHistory Party) (final : World Party),
      WorldRun openDigest (fun _ _ => true) history final ∧
      (final.sessions .bob).config.isStrict = true ∧ ¬ (acceptedBy Party.bob history).Nodup := by
  obtain ⟨history, final, run, twice⟩ := WorldRun.of_checked_play openDigest (fun _ _ => true)
    world_starts overtaken
    (fun result => (result.1.sessions .bob).config.isStrict &&
      !decide (acceptedBy Party.bob result.2).Nodup) (by decide +kernel)
  simp only [Bool.and_eq_true, Bool.not_eq_true', decide_eq_false_iff_not] at twice
  exact ⟨history, final, run, twice.1, twice.2⟩

def Handshake.orderly : List (WorldCall Handshake.Party) :=
  [ .sign .alice Handshake.hello Handshake.toBob (.error .entropy),
    .receive .bob Handshake.first.2 Handshake.toBob 0 (.ok (Handshake.nonce 8)),
    .sign .alice (Handshake.reply 8) Handshake.toBob (.error .entropy),
    .receive .bob Handshake.firstReply.2 Handshake.toBob 10 (.error .entropy),
    .receive .bob Handshake.firstReply.2 Handshake.toBob 20 (.error .entropy) ]

open Handshake in
theorem orderly_handshake_accepts_once :
    ∃ (history : WorldHistory Party) (final : World Party),
      WorldRun openDigest (World.forward openDigest) history final ∧
      acceptedBy Party.bob history = [(firstReply.2, toBob)] ∧
      (acceptedBy Party.bob history).Nodup := by
  obtain ⟨history, final, run, once⟩ := WorldRun.of_checked_play openDigest
    (World.forward openDigest) world_starts orderly
    (fun result => (result.1.sessions .bob).config.isStrict &&
      decide (acceptedBy Party.bob result.2 = [(firstReply.2, toBob)])) (by decide +kernel)
  simp only [Bool.and_eq_true, decide_eq_true_eq] at once
  exact ⟨history, final, run, once.2, no_datagram_accepted_twice run .bob once.1⟩

end BabelRs
