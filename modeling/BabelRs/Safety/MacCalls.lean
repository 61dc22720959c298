import BabelRs.Mac

/-!
# What one call of a strict MAC session can do

`receive_cases` says everything a `receive` of a strict session can do to its peer
table and to the caller: drop the datagram without a trace, or, for a datagram whose
MAC verifies, one of four outcomes for the peer it came from.
-/

set_option autoImplicit false

namespace BabelRs

open Lib

def MacReception.Issues (reception : MacReception) (nonce : Nonce) : Prop :=
  Mac.control Mac.REQUEST nonce.val ∈ reception.controls

instance (reception : MacReception) (nonce : Nonce) : Decidable (reception.Issues nonce) :=
  inferInstanceAs (Decidable (_ ∈ _))

namespace MacSession

open Mac

/-! ## Controls -/

theorem control_type_injective {first second : UInt8} {left right : List UInt8}
    (same : control first left = control second right) : first = second := by
  have lengths : ∀ value, (toBe 2 value).length = 2 := length_toBe 2
  have left4 : (control first left)[4]? = some first := by
    simp [Mac.control, lengths]
  have right4 : (control second right)[4]? = some second := by
    simp [Mac.control, lengths]
  exact Option.some.inj (left4.symm.trans (same ▸ right4))

theorem control_nonce_injective {type : UInt8} {left right : Nonce}
    (same : control type left.val = control type right.val) : left = right := by
  have widths : left.val.length = right.val.length := left.property.trans right.property.symm
  simp only [Mac.control, widths, List.append_cancel_left_eq] at same
  exact Subtype.ext same

theorem answer_controls (body : List (UInt8 × List UInt8)) (endpoints : DatagramEndpoints)
    (now : UInt64) (peer : MacPeer) :
    ∀ framed ∈ (answer body endpoints now peer).2, ∃ nonce, framed = control REPLY nonce := by
  intro framed member
  unfold answer at member
  split at member
  · split at member
    · exact ⟨_, List.mem_singleton.mp member⟩
    · cases member
  · cases member

/-- Answering a request only dates the peer's last reply. -/
theorem answer_peer (body : List (UInt8 × List UInt8)) (endpoints : DatagramEndpoints)
    (now : UInt64) (peer : MacPeer) :
    ∃ lastReply, (answer body endpoints now peer).1 = { peer with lastReply } := by
  unfold answer
  split
  · split
    · exact ⟨_, rfl⟩
    · exact ⟨peer.lastReply, rfl⟩
  · exact ⟨peer.lastReply, rfl⟩

theorem not_issues_of_replies {reception : MacReception}
    (replies : ∀ framed ∈ reception.controls, ∃ nonce, framed = control REPLY nonce)
    (nonce : Nonce) : ¬ reception.Issues nonce := by
  intro issued
  obtain ⟨other, same⟩ := replies _ issued
  exact absurd (control_type_injective same) (by decide)

theorem issues_concat_iff {accepted : Bool} {controls : List (List UInt8)} {nonce : Nonce}
    (replies : ∀ framed ∈ controls, ∃ nonce, framed = control REPLY nonce) (other : Nonce) :
    MacReception.Issues ⟨accepted, controls ++ [control REQUEST nonce.val]⟩ other ↔
      other = nonce := by
  simp only [MacReception.Issues, List.mem_append, List.mem_singleton]
  constructor
  · rintro (inControls | same)
    · obtain ⟨_, same⟩ := replies _ inControls
      exact absurd (control_type_injective same) (by decide)
    · exact control_nonce_injective same
  · rintro rfl
    exact .inr rfl

/-! ## The outcomes for a peer -/

/-- What a verified body does to the peer it came from, and what the caller hears. -/
inductive Outcome (session : MacSession) (body : List (UInt8 × List UInt8))
    (endpoints : DatagramEndpoints) (now : UInt64) (draw : Draw) (peer : MacPeer) :
    MacSession → MacReception → Prop
  | kept {lastReply : Option UInt64} {reception : MacReception}
      (refused : reception.accepted = false) (silent : ∀ nonce, ¬ reception.Issues nonce) :
      Outcome session body endpoints now draw peer
        (session.putPeer endpoints.source { peer with lastReply }) reception
  | challenged {lastReply : Option UInt64} {reception : MacReception} {nonce : Nonce}
      {pc : UInt32} {index : List UInt8} (drawn : draw = .ok nonce)
      (labelled : packetCounter body = some (pc, index)) (unproved : peer.index ≠ some index)
      (noAnswer : success body peer now = false) (refused : reception.accepted = false)
      (issued : ∀ other, reception.Issues other ↔ other = nonce) :
      Outcome session body endpoints now draw peer
        { session.putPeer endpoints.source
            { peer with lastReply, nonce := some (nonce, satAdd now CHALLENGE_MS) } with
          lastChallenge := some now } reception
  | answered {lastReply : Option UInt64} {reception : MacReception} {pc : UInt32}
      {index : List UInt8} (labelled : packetCounter body = some (pc, index))
      (answers : success body peer now = true) (accepted : reception.accepted = true)
      (silent : ∀ nonce, ¬ reception.Issues nonce) :
      Outcome session body endpoints now draw peer
        (session.putPeer endpoints.source
          { peer with
            lastReply, nonce := none, index := some index, unicast := pc, multicast := pc
            expires := satAdd now EXPIRE_MS }) reception
  | counted {lastReply : Option UInt64} {reception : MacReception} {pc : UInt32}
      {index : List UInt8} (labelled : packetCounter body = some (pc, index))
      (noAnswer : success body peer now = false) (current : peer.index = some index)
      (above : peer.counter endpoints.multicast < pc) (accepted : reception.accepted = true)
      (silent : ∀ nonce, ¬ reception.Issues nonce) :
      Outcome session body endpoints now draw peer
        (session.putPeer endpoints.source
          { peer with
            lastReply
            multicast := if endpoints.multicast then pc else peer.multicast
            unicast := if endpoints.multicast then peer.unicast else pc
            expires := satAdd now EXPIRE_MS }) reception

variable {session : MacSession}

theorem Outcome.stored {next : MacSession} {body : List (UInt8 × List UInt8)}
    {endpoints : DatagramEndpoints} {now : UInt64} {draw : Draw} {peer : MacPeer}
    {reception : MacReception}
    (outcome : Outcome session body endpoints now draw peer next reception) :
    ∃ after, next.peers = session.peers.insert endpoints.source after := by
  cases outcome <;> exact ⟨_, rfl⟩

/-- An error reaches the caller as the default reception. -/
def reported : Except MacError MacReception → MacReception
  | .ok reception => reception
  | .error _ => ⟨false, []⟩

theorem decideOn_outcome (strict : session.config.acceptUnverified = false)
    (body : List (UInt8 × List UInt8)) (endpoints : DatagramEndpoints) (now : UInt64) (draw : Draw)
    (peer : MacPeer) (lastReply : Option UInt64) (controls : List (List UInt8))
    (replies : ∀ framed ∈ controls, ∃ nonce, framed = control REPLY nonce) :
    Outcome session body endpoints now draw peer
      (session.decideOn body endpoints now draw { peer with lastReply } controls).1
      (reported (session.decideOn body endpoints now draw { peer with lastReply } controls).2) := by
  have silent : ∀ accepted nonce, ¬ MacReception.Issues ⟨accepted, controls⟩ nonce :=
    fun accepted => not_issues_of_replies (show ∀ framed ∈ MacReception.controls
      ⟨accepted, controls⟩, ∃ nonce, framed = control REPLY nonce from replies)
  have mute : ∀ nonce, ¬ MacReception.Issues ⟨false, []⟩ nonce := fun _ => List.not_mem_nil
  cases labelled : packetCounter body with
  | none =>
    simp only [decideOn, labelled, strict]
    exact .kept rfl (silent false)
  | some label =>
    obtain ⟨pc, index⟩ := label
    have sameSuccess : success body { peer with lastReply } now = success body peer now := rfl
    simp only [decideOn, labelled, strict, sameSuccess]
    cases answers : success body peer now with
    | true =>
      exact .answered labelled answers rfl (silent true)
    | false =>
      simp only [Bool.false_eq_true, if_false]
      by_cases current : peer.index = some index
      · rw [if_neg (not_not.mpr current)]
        split
        · exact .kept rfl (silent false)
        · rename_i above
          exact .counted labelled answers current (UInt32.not_le.mp above) rfl (silent true)
      · rw [if_pos current]
        split
        · cases drawn : draw with
          | error error => exact .kept rfl mute
          | ok nonce =>
            exact .challenged rfl labelled current answers rfl (issues_concat_iff replies)
        · exact .kept rfl (silent false)

/-! ## Receiving -/

/-- The datagram's body parses and a trailing MAC verifies for these endpoints and this body. -/
structure Authentic (digest : MacKey → List UInt8 → List UInt8) (config : MacConfig)
    (packet : List UInt8) (endpoints : DatagramEndpoints) (body : List (UInt8 × List UInt8)) :
    Prop where
  stop : ∃ stop data trailer key, bodyEnd packet = .ok stop ∧
    tlvs ((packet.take stop).drop 4) = .ok body ∧ tlvs (packet.drop stop) = .ok trailer ∧
    endpoints.authenticatedBytes (packet.take stop) = .ok data ∧
    key ∈ config.keys ∧ (MAC, digest key data) ∈ trailer

variable {digest : MacKey → List UInt8 → List UInt8}

theorem verified_eq_true {packet : List UInt8} {stop : Nat} {endpoints : DatagramEndpoints}
    (verifies : session.verified digest packet stop endpoints = .ok true) :
    ∃ data trailer key, tlvs (packet.drop stop) = .ok trailer ∧
      endpoints.authenticatedBytes (packet.take stop) = .ok data ∧
      key ∈ session.config.keys ∧ (MAC, digest key data) ∈ trailer := by
  unfold verified at verifies
  cases parsed : tlvs (packet.drop stop) with
  | error error => simp [parsed, bind, Except.bind] at verifies
  | ok trailer =>
    simp only [parsed, bind, Except.bind] at verifies
    split at verifies
    · cases covered : endpoints.authenticatedBytes (packet.take stop) with
      | error error => simp [covered] at verifies
      | ok data =>
        simp only [covered, pure, Except.pure, Except.ok.injEq, List.any_eq_true,
          Bool.and_eq_true, decide_eq_true_eq] at verifies
        obtain ⟨key, configured, ⟨type, value⟩, inTrailer, rfl, rfl⟩ := verifies
        exact ⟨data, trailer, key, rfl, rfl, configured, inTrailer⟩
    · simp [pure, Except.pure] at verifies

/-- The record a datagram from `source` is judged by: the stored one, or a new one if the
table has room. -/
inductive Met (session : MacSession) (source : SocketAddr) (now : UInt64) : MacPeer → Prop
  | again {peer : MacPeer} (known : session.peers.get? source = some peer) :
      Met session source now peer
  | first (unknown : session.peers.get? source = none)
      (room : session.peers.len < session.maxPeers) : Met session source now (.met now)

theorem get?_expire {source : SocketAddr} {now : UInt64} {peer : MacPeer} :
    (session.expire now).peers.get? source = some peer ↔
      session.peers.get? source = some peer ∧ now < peer.expires := by
  simp [expire, Option.filter_eq_some_iff]

variable (digest) in
theorem sign_peers (session : MacSession) (packet : List UInt8) (endpoints : DatagramEndpoints)
    (draw : Draw) :
    (session.sign digest packet endpoints draw).1.peers = session.peers ∧
      (session.sign digest packet endpoints draw).1.config = session.config ∧
      (session.sign digest packet endpoints draw).1.maxPeers = session.maxPeers := by
  unfold sign
  split
  · exact ⟨rfl, rfl, rfl⟩
  · cases renews : session.renewed draw with
    | error error => exact ⟨rfl, rfl, rfl⟩
    | ok next =>
      unfold renewed at renews
      split at renews
      · cases draw with
        | error error => cases renews
        | ok index => cases renews; exact ⟨rfl, rfl, rfl⟩
      · cases renews; exact ⟨rfl, rfl, rfl⟩

variable (digest) in
/-- Everything a `receive` of a strict session can do. -/
theorem receive_cases (strict : session.config.isStrict = true) (packet : List UInt8)
    (endpoints : DatagramEndpoints) (now : UInt64) (draw : Draw) :
    session.receive digest packet endpoints now draw = (session.expire now, ⟨false, []⟩) ∨
    ∃ body peer, Authentic digest session.config packet endpoints body ∧
      Met (session.expire now) endpoints.source now peer ∧
      Outcome (session.expire now) body endpoints now draw peer
        (session.receive digest packet endpoints now draw).1
        (session.receive digest packet endpoints now draw).2 := by
  have checks : session.config.acceptUnverified = false := by
    simpa [MacConfig.isStrict] using strict
  have unverified : (session.expire now).config.acceptUnverified = false := checks
  have received : session.receive digest packet endpoints now draw =
      (((session.expire now).receiveInner digest packet endpoints now draw).1,
        reported ((session.expire now).receiveInner digest packet endpoints now draw).2) := by
    unfold receive reported
    split <;> simp_all
  rw [received]
  generalize expired : session.expire now = aged at *
  have sameConfig : aged.config = session.config := by rw [← expired]; rfl
  cases framed : bodyEnd packet with
  | error error => left; simp [receiveInner, framed, reported]
  | ok stop =>
    cases verifies : aged.verified digest packet stop endpoints with
    | error error => left; simp [receiveInner, framed, unverified, verifies, reported]
    | ok valid =>
      cases valid with
      | false => left; simp [receiveInner, framed, unverified, verifies, reported]
      | true =>
        have inner : aged.receiveInner digest packet endpoints now draw =
            aged.process packet stop endpoints now draw := by
          simp [receiveInner, framed, unverified, verifies]
        rw [inner]
        cases parsed : tlvs ((packet.take stop).drop 4) with
        | error error => left; simp [process, parsed, reported]
        | ok body =>
          have authentic : Authentic digest session.config packet endpoints body := by
            obtain ⟨data, trailer, key, inTrailer, covered, configured, carried⟩ :=
              verified_eq_true verifies
            exact ⟨stop, data, trailer, key, framed, parsed, inTrailer, covered,
              sameConfig ▸ configured, carried⟩
          cases known : aged.peers.get? endpoints.source with
          | some peer =>
            obtain ⟨lastReply, dated⟩ := answer_peer body endpoints now peer
            right
            refine ⟨body, peer, authentic, .again known, ?_⟩
            simp only [process, parsed, known, dated]
            exact decideOn_outcome unverified body endpoints now draw peer lastReply _
              (answer_controls body endpoints now peer)
          | none =>
            by_cases full : aged.maxPeers ≤ aged.peers.len
            · left
              simp [process, parsed, known, full, reported, unverified]
            · obtain ⟨lastReply, dated⟩ := answer_peer body endpoints now (.met now)
              right
              refine ⟨body, .met now, authentic, .first known (not_le.mp full), ?_⟩
              simp only [process, parsed, known, if_neg full, dated]
              exact decideOn_outcome unverified body endpoints now draw (.met now)
                lastReply _ (answer_controls body endpoints now (.met now))

end MacSession

end BabelRs
