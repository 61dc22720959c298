import BabelRs.Lib.Checked
import BabelRs.Safety.MacReplay
import BabelRs.Wire.Parsing
import Mathlib.Data.List.Induction

/-!
# Authenticated sessions interoperate

What one strict session signs, another that shares a key can use: the datagram keeps its
TLVs, verifies, and carries a number of its own.  A receiver that does not hold the
sender's index gets it by one challenge, and then accepts what arrives in order, until
the answer to a further challenge moves its counters.
-/

set_option autoImplicit false

namespace BabelRs

open Lib Mac MacSession

variable {digest : MacKey → List UInt8 → List UInt8}

/-- The digests of the two algorithms have the size the code reserves for them. -/
def Sized (digest : MacKey → List UInt8 → List UInt8) : Prop :=
  ∀ key data, (digest key data).length =
    match key.algorithm with
    | .hmacSha256 => 32
    | .blake2s128 => 16

theorem Sized.small (sized : Sized digest) (key : MacKey) (data : List UInt8) :
    (digest key data).length < 256 := by
  rw [sized key data]
  cases key.algorithm <;> decide

/-! ## The shape of a signed datagram -/

variable {endpoints : DatagramEndpoints} {packet datagram : List UInt8} {draw : Draw}

theorem length_trailer (sized : Sized digest) (session : MacSession) (data : List UInt8) :
    22 + (session.trailer digest data).length = session.config.overhead := by
  have keys : ∀ keys : List MacKey, (keys.flatMap fun key =>
      [MAC, UInt8.ofNat (digest key data).length] ++ digest key data).length =
      (keys.map fun key => match key.algorithm with
        | .hmacSha256 => 34
        | .blake2s128 => 18).sum := by
    intro keys
    induction keys with
    | nil => rfl
    | cons key rest ih =>
      simp only [List.flatMap_cons, List.length_append, List.map_cons, List.sum_cons, ih,
        List.length_cons, List.length_nil, sized key data]
      cases key.algorithm <;> rfl
  exact congrArg (22 + ·) (keys _)

/-! ## What the decoder sees -/

/-- A frame of a type the decoder does not know, behind a whole body. -/
theorem decodeBody_unknown {front whole : List UInt8} {type : UInt8} {value : List UInt8}
    (complete : (frames front).truncated = none)
    (framed : frames whole = Framed.precede ((frames front).frames ++ [.tlv type value])
      Framed.nothing)
    (unknown : ∀ state, Wire.decodeTlv type value state = .ok (some (.unknown type value), state))
    (source : IpAddr) :
    Wire.decodeBody whole source = (Wire.decodeBody front source).map fun decoded =>
      ⟨decoded.tlvs ++ [.unknown type value]⟩ := by
  simp only [Wire.decodeBody_eq, foldFrames, framed, complete, Framed.frames_precede,
    Framed.truncated_precede, Framed.nothing, List.append_nil, List.foldlM_append, List.foldlM_cons,
    List.foldlM_nil]
  cases (frames front).frames.foldlM Wire.decodeFrame ([], .new source) with
  | error failure => rfl
  | ok parsed => simp [Wire.decodeFrame_tlv, unknown, pure, Except.pure, Except.map]

namespace SignedBy

variable {numberer : MacSession}

theorem length_eq (signed : SignedBy digest numberer packet endpoints datagram)
    (sized : Sized digest) : datagram.length = packet.length + numberer.config.overhead := by
  obtain ⟨high, low, content, _, data, packetEq, -, -, -, -, -, made⟩ := signed.parts
  rw [made, packetEq, ← length_trailer sized numberer data]
  simp [length_pcTlv]
  omega

/-- The trailer lies behind the body, and the PC is one more TLV of a type the decoder does
not know. -/
theorem decodes (signed : SignedBy digest numberer packet endpoints datagram)
    (context : DecodeContext) :
    Wire.decodePacket datagram context = (Wire.decodePacket packet context).map fun decoded =>
      ⟨decoded.tlvs ++ [.unknown PC (pcTlv numberer).2]⟩ := by
  obtain ⟨high, low, content, found, data, packetEq, length, parsed, -, small, -, made⟩ :=
    signed.parts
  have whole : (frames content).truncated = none := by
    unfold tlvs at parsed
    split at parsed
    · assumption
    · cases parsed
  obtain ⟨first, second, octets⟩ : ∃ first second, toBe 2 (content.length + 22) = [first, second] :=
    List.length_eq_two.mp (length_toBe 2 _)
  have bodyLen : ofBe [first, second] = content.length + 22 := by
    rw [← octets, ofBe_toBe_of_lt (by omega)]
  have body : (frames (content ++ PC :: 20 :: (pcTlv numberer).2)) =
      Framed.precede ((frames content).frames ++ [.tlv PC (pcTlv numberer).2]) Framed.nothing := by
    have pc := frames_bytes_append (show (Frame.tlv PC (pcTlv numberer).2).Writable from
      ⟨by decide, by rw [length_pcTlv]; omega⟩) []
    rw [List.append_nil, Frame.bytes, length_pcTlv, frames_nil] at pc
    rw [frames_append content _ whole]
    have same : (PC :: 20 :: (pcTlv numberer).2) =
        PC :: UInt8.ofNat 20 :: (pcTlv numberer).2 := rfl
    rw [same, pc, Framed.precede_precede]
  have signedBody : Wire.decodePacket datagram context =
      Wire.decodeBody (content ++ PC :: 20 :: (pcTlv numberer).2) context.source := by
    have size : (content ++ PC :: 20 :: (pcTlv numberer).2).length = content.length + 22 := by
      simp [length_pcTlv]
    have taken : ((content ++ PC :: 20 :: (pcTlv numberer).2) ++
        numberer.trailer digest data).take (content.length + 22) =
        content ++ PC :: 20 :: (pcTlv numberer).2 := List.take_left' size
    have fits : ofBe [first, second] ≤ ((content ++ PC :: 20 :: (pcTlv numberer).2) ++
        numberer.trailer digest data).length := by
      rw [bodyLen, List.length_append, size]
      omega
    rw [made, octets]
    exact Wire.decodePacket_framed fits (bodyLen ▸ taken) context
  have plainBody : Wire.decodePacket packet context = Wire.decodeBody content context.source := by
    rw [packetEq]
    exact Wire.decodePacket_framed length.le (by rw [length, List.take_length]) context
  rw [signedBody, plainBody]
  exact decodeBody_unknown whole body (fun _ => rfl) context.source

end SignedBy

/-! ## The MAC check -/

theorem tlvs_trailer (sized : Sized digest) (keys : List MacKey) (data : List UInt8) :
    tlvs (keys.flatMap fun key => [MAC, UInt8.ofNat (digest key data).length] ++ digest key data) =
      .ok (keys.map fun key => (MAC, digest key data)) := by
  induction keys with
  | nil => rfl
  | cons key rest ih =>
    have framed := tlvs_frame (show MAC ≠ 0 by decide) (sized.small key data)
      (rest.flatMap fun key => [MAC, UInt8.ofNat (digest key data).length] ++ digest key data)
    rw [ih] at framed
    exact framed

/-- A signed datagram is authentic for every session that holds one of the signer's keys. -/
theorem SignedBy.authentic {numberer : MacSession} (sized : Sized digest)
    (signed : SignedBy digest numberer packet endpoints datagram) {config : MacConfig}
    {key : MacKey} (theirs : key ∈ numberer.config.keys) (ours : key ∈ config.keys) :
    Authentic digest config datagram endpoints (bodyOf datagram) := by
  obtain ⟨_, data, whole, covered, framed, -⟩ := signed.bodyBytes_eq
  obtain ⟨found, -, -, read, bodyEq⟩ := signed.bodyOf_eq
  have front : datagram.take (bodyBytes datagram).length = bodyBytes datagram :=
    (congrArg (List.take (bodyBytes datagram).length) whole).trans List.take_left
  have back : datagram.drop (bodyBytes datagram).length = numberer.trailer digest data :=
    (congrArg (List.drop (bodyBytes datagram).length) whole).trans List.drop_left
  refine ⟨(bodyBytes datagram).length, data, numberer.config.keys.map fun key =>
    (MAC, digest key data), key, framed, ?_, ?_, ?_, ours, List.mem_map_of_mem theirs⟩
  · rw [front, bodyEq, read]
  · rw [back]
    exact tlvs_trailer sized numberer.config.keys data
  · rw [front, covered]

/-! ## Numbers -/

namespace MacSession

variable (digest)

/-- What a session signs along some calls, with the endpoints it is for. -/
def signs (session : MacSession) : List MacCall → List (List UInt8 × DatagramEndpoints)
  | [] => []
  | call :: rest =>
    (match call with
      | .sign packet endpoints draw =>
        (session.sign digest packet endpoints draw).2.toOption.toList.map fun datagram =>
          (datagram, endpoints)
      | _ => []) ++ (session.call digest call).1.signs rest

/-- The indices a session draws along some calls, each because its counter has run out. -/
def renewals (session : MacSession) : List MacCall → List Nonce
  | [] => []
  | call :: rest =>
    (match call with
      | .sign packet _ draw =>
        if (signable packet).isOk && session.counter = 0xffffffff then draw.toOption.toList
        else []
      | _ => []) ++ (session.call digest call).1.renewals rest

theorem signs_cons (session : MacSession) (call : MacCall) (rest : List MacCall) :
    session.signs digest (call :: rest) =
      session.signs digest [call] ++ (session.call digest call).1.signs digest rest := by
  simp [signs]

theorem renewals_cons (session : MacSession) (call : MacCall) (rest : List MacCall) :
    session.renewals digest (call :: rest) =
      session.renewals digest [call] ++ (session.call digest call).1.renewals digest rest := by
  simp [renewals]

theorem length_signs_one (session : MacSession) (call : MacCall) :
    (session.signs digest [call]).length ≤ 1 := by
  cases call with
  | sign packet endpoints draw =>
    cases made : (session.sign digest packet endpoints draw).2 <;>
      simp [signs, made, Except.toOption]
  | receive packet endpoints now draw => simp [signs]
  | expire now => simp [signs]

end MacSession

def numberOf (datagram : List UInt8) : Option (UInt32 × List UInt8) :=
  packetCounter (bodyOf datagram)

/-- What a call does to the numbers: `low` is the one it may spend, under the index the session
has after the call. -/
structure Spends (digest : MacKey → List UInt8 → List UInt8) (session : MacSession)
    (call : MacCall) (low : UInt32) : Prop where
  index : session.renewals digest [call] = [] ∧
      (session.call digest call).1.index = session.index ∧ session.counter ≤ low ∨
    session.renewals digest [call] = [(session.call digest call).1.index]
  spent : low ≤ (session.call digest call).1.counter
  number : ∀ signed ∈ session.signs digest [call], low < (session.call digest call).1.counter ∧
    numberOf signed.1 = some (low, (session.call digest call).1.index.val)

theorem Spends.nothing {session : MacSession} {call : MacCall}
    (drew : session.renewals digest [call] = []) (signed : session.signs digest [call] = [])
    (index : (session.call digest call).1.index = session.index)
    (counter : (session.call digest call).1.counter = session.counter) :
    Spends digest session call session.counter where
  index := .inl ⟨drew, index, UInt32.le_refl _⟩
  spent := counter ▸ UInt32.le_refl _
  number _ member := by simp [signed] at member

theorem lt_add_one {counter : UInt32} (spare : counter ≠ 0xffffffff) : counter < counter + 1 := by
  rw [UInt32.lt_iff_toNat_lt, toNat_add_one spare]
  omega

/-- Once the packet may be signed and the index is settled, one number is spent. -/
theorem Spends.signing {session numberer : MacSession} (allowed : signable packet = .ok ())
    (renews : session.renewed draw = .ok numberer)
    (index : session.renewals digest [.sign packet endpoints draw] = [] ∧
        numberer.index = session.index ∧ session.counter ≤ numberer.counter ∨
      session.renewals digest [.sign packet endpoints draw] = [numberer.index]) :
    Spends digest session (.sign packet endpoints draw) numberer.counter := by
  have next : (session.call digest (.sign packet endpoints draw)).1 =
      { numberer with counter := numberer.counter + 1 } := by
    simp [MacSession.call, MacSession.sign, allowed, renews]
  have above := lt_add_one (renewed_cases renews).1
  refine ⟨by rw [next]; exact index, by rw [next]; exact UInt32.le_of_lt above, ?_⟩
  intro signed member
  rw [next]
  refine ⟨above, ?_⟩
  cases made : session.sign digest packet endpoints draw with
  | mk after result =>
    cases result with
    | error error => simp [signs, made, Except.toOption] at member
    | ok datagram =>
      obtain ⟨same, renewedTo, -, signedBy⟩ := sign_eq_ok made
      obtain rfl := Except.ok.inj (renews.symm.trans renewedTo)
      simp only [signs, made, Except.toOption, Option.toList_some, List.map_cons,
        List.map_nil, List.append_nil, List.mem_singleton] at member
      rw [member]
      exact signedBy.packetCounter_eq

variable (digest) in
theorem call_spends (session : MacSession) (call : MacCall) : ∃ low, Spends digest session call low := by
  cases call with
  | expire now => exact ⟨_, .nothing rfl rfl rfl rfl⟩
  | receive packet endpoints now draw =>
    obtain ⟨index, counter, -⟩ := receive_numbers digest session packet endpoints now draw
    exact ⟨_, .nothing rfl rfl index counter⟩
  | sign packet endpoints draw =>
    cases allowed : signable packet with
    | error error =>
      refine ⟨_, .nothing ?_ ?_ ?_ ?_⟩ <;>
        simp [renewals, signs, MacSession.call, MacSession.sign, allowed, Except.isOk,
          Except.toBool, Except.toOption]
    | ok value =>
      by_cases spare : session.counter = 0xffffffff
      · cases draw with
        | error error =>
          refine ⟨_, .nothing ?_ ?_ ?_ ?_⟩ <;>
            simp [renewals, signs, MacSession.call, MacSession.sign, allowed,
              MacSession.renewed, spare, Except.toOption]
        | ok index =>
          have renews : session.renewed (.ok index) =
              .ok { session with index, counter := 0 } := by
            simp [MacSession.renewed, spare]
          exact ⟨_, .signing allowed renews (.inr (by
            simp [renewals, allowed, spare, Except.isOk, Except.toBool, Except.toOption]))⟩
      · have renews : session.renewed draw = .ok session := by
          simp [MacSession.renewed, spare]
        exact ⟨_, .signing allowed renews
          (.inl ⟨by simp [renewals, spare], rfl, UInt32.le_refl _⟩)⟩

/-- What a session signs carries its index, at or above its counter, or an index it draws. -/
theorem signs_numbered (session : MacSession) (calls : List MacCall) :
    ∀ signed ∈ session.signs digest calls,
      (∃ counter, session.counter ≤ counter ∧
        numberOf signed.1 = some (counter, session.index.val)) ∨
      ∃ index ∈ session.renewals digest calls, ∃ counter,
        numberOf signed.1 = some (counter, index.val) := by
  induction calls generalizing session with
  | nil => intro signed member; cases member
  | cons call rest ih =>
    intro signed member
    obtain ⟨low, spends⟩ := call_spends digest session call
    rw [signs_cons, List.mem_append] at member
    rw [renewals_cons]
    rcases member with now | later
    · obtain ⟨-, number⟩ := spends.number signed now
      rcases spends.index with ⟨-, same, above⟩ | drew
      · exact .inl ⟨low, above, same ▸ number⟩
      · exact .inr ⟨_, List.mem_append_left _ (by simp [drew]), low, number⟩
    · rcases ih (session.call digest call).1 signed later with
        ⟨counter, above, number⟩ | ⟨index, drawn, number⟩
      · rcases spends.index with ⟨-, same, started⟩ | drew
        · exact .inl ⟨counter, UInt32.le_trans started (UInt32.le_trans spends.spent above),
            same ▸ number⟩
        · exact .inr ⟨_, List.mem_append_left _ (by simp [drew]), counter, number⟩
      · exact .inr ⟨index, List.mem_append_right _ drawn, number⟩

/-- No number is spent twice while the indices drawn are distinct. -/
theorem signs_numbers_nodup (session : MacSession) (calls : List MacCall)
    (distinct : (session.index :: session.renewals digest calls).Nodup) :
    ((session.signs digest calls).map fun signed => numberOf signed.1).Nodup := by
  induction calls generalizing session with
  | nil => exact List.nodup_nil
  | cons call rest ih =>
    obtain ⟨low, spends⟩ := call_spends digest session call
    rw [renewals_cons] at distinct
    rw [signs_cons, List.map_append, List.nodup_append]
    have onward : ((session.call digest call).1.index ::
        (session.call digest call).1.renewals digest rest).Nodup := by
      rcases spends.index with ⟨none, same, -⟩ | drew
      · rw [none] at distinct
        rw [same]
        exact distinct
      · rw [drew] at distinct
        exact distinct.of_cons
    have single : ((session.signs digest [call]).map fun signed => numberOf signed.1).Nodup := by
      have short := length_signs_one digest session call
      match session.signs digest [call], short with
      | [], _ => exact List.nodup_nil
      | [signed], _ => exact List.nodup_singleton _
    refine ⟨single, ih _ onward, ?_⟩
    -- a later number is above `low` under the same index, or of an index drawn later
    intro number inNow other inLater same
    obtain ⟨now, nowMember, rfl⟩ := List.mem_map.mp inNow
    obtain ⟨later, laterMember, rfl⟩ := List.mem_map.mp inLater
    obtain ⟨above, numbered⟩ := spends.number now nowMember
    rw [numbered] at same
    rcases signs_numbered _ rest later laterMember with
      ⟨counter, started, numbered⟩ | ⟨index, drawn, counter, numbered⟩
    · rw [numbered] at same
      obtain rfl := (Prod.mk.inj (Option.some.inj same)).1
      exact absurd above (UInt32.not_lt.mpr started)
    · rw [numbered] at same
      have sameIndex := Subtype.ext (Prod.mk.inj (Option.some.inj same)).2
      exact (List.nodup_cons.mp onward).1 (sameIndex ▸ drawn)

/-! ## Receiving an authentic datagram -/

variable {index : List UInt8} {pc : UInt32}

section Receiving
variable {session : MacSession} {packet : List UInt8} {endpoints : DatagramEndpoints}
  {now : UInt64} {draw : Draw} {peer : MacPeer} {body : List (UInt8 × List UInt8)}

/-- An authentic datagram from a peer with a record, or with room for one, is judged. -/
theorem receive_authentic (authentic : Authentic digest session.config packet endpoints body)
    (met : Met (session.expire now) endpoints.source now peer) :
    session.receive digest packet endpoints now draw =
      let answered := answer body endpoints now peer
      let decided := (session.expire now).decideOn body endpoints now draw answered.1 answered.2
      (decided.1, reported decided.2) := by
  have aged : Authentic digest (session.expire now).config packet endpoints body := authentic
  obtain ⟨stop, framed, parsed, valid⟩ := aged.verified_ok
  have judged : (session.expire now).process packet stop endpoints now draw =
      (session.expire now).decideOn body endpoints now draw (answer body endpoints now peer).1
        (answer body endpoints now peer).2 := by
    cases met with
    | again known => simp [process, parsed, known]
    | first unknown room => simp [process, parsed, unknown, not_le.mpr room]
  have inner : (session.expire now).receiveInner digest packet endpoints now draw =
      (session.expire now).process packet stop endpoints now draw := by
    simp [receiveInner, framed, valid]
  simp only [receive, inner, judged, reported]
  split <;> simp_all

/-- A peer that is not known by the index the datagram carries is challenged, if the datagram
does not answer a challenge itself. -/
theorem receive_unknown_index (authentic : Authentic digest session.config packet endpoints body)
    (met : Met (session.expire now) endpoints.source now peer)
    (labelled : packetCounter body = some (pc, index)) (unproved : peer.index ≠ some index)
    (due : elapsed session.lastChallenge now = true) (nonce : Nonce) :
    (session.receive digest packet endpoints now (.ok nonce)).2.accepted = true ∨
      control REQUEST nonce.val ∈
          (session.receive digest packet endpoints now (.ok nonce)).2.controls ∧
        ∃ after, (session.receive digest packet endpoints now (.ok nonce)).1.peers.get?
            endpoints.source = some after ∧
          after.nonce = some (nonce, satAdd now CHALLENGE_MS) := by
  obtain ⟨lastReply, dated⟩ := answer_peer body endpoints now peer
  have sameSuccess : success body { peer with lastReply } now = success body peer now := rfl
  have ready : elapsed (session.expire now).lastChallenge now = true := due
  rw [receive_authentic authentic met]
  simp only [dated, decideOn, labelled, sameSuccess]
  cases answers : success body peer now with
  | true => exact .inl rfl
  | false =>
    right
    simp [unproved, ready, reported, putPeer]

/-- A body that answers the outstanding challenge is accepted, and its number is the one later
datagrams have to exceed. -/
theorem receive_answer (authentic : Authentic digest session.config packet endpoints body)
    (met : Met (session.expire now) endpoints.source now peer)
    (labelled : packetCounter body = some (pc, index)) (answers : success body peer now = true) :
    (session.receive digest packet endpoints now draw).2.accepted = true ∧
      ∃ after, (session.receive digest packet endpoints now draw).1.peers.get? endpoints.source =
          some after ∧ after.index = some index ∧ ∀ channel, after.counter channel = pc := by
  obtain ⟨lastReply, dated⟩ := answer_peer body endpoints now peer
  have sameSuccess : success body { peer with lastReply } now = success body peer now := rfl
  rw [receive_authentic authentic met]
  simp only [dated, decideOn, labelled, sameSuccess, answers, if_true, reported, putPeer,
    AssocMap.get?_insert, Option.some.injEq, exists_eq_left', true_and]
  intro channel
  cases channel <;> rfl

/-- A body of the known index whose counter is above the last one of its channel is accepted. -/
theorem receive_in_order (authentic : Authentic digest session.config packet endpoints body)
    (met : Met (session.expire now) endpoints.source now peer)
    (labelled : packetCounter body = some (pc, index)) (current : peer.index = some index)
    (above : peer.counter endpoints.multicast < pc) :
    (session.receive digest packet endpoints now draw).2.accepted = true := by
  obtain ⟨lastReply, dated⟩ := answer_peer body endpoints now peer
  have sameSuccess : success body { peer with lastReply } now = success body peer now := rfl
  have sameCounter : MacPeer.counter { peer with lastReply } endpoints.multicast =
    peer.counter endpoints.multicast := rfl
  rw [receive_authentic authentic met]
  simp only [dated, decideOn, labelled, sameSuccess, sameCounter]
  cases answers : success body peer now with
  | true => rfl
  | false => simp [current, UInt32.not_le.mpr above, reported]

/-- Whatever else is decided, a request is answered once its rate limit has passed. -/
theorem receive_request (authentic : Authentic digest session.config packet endpoints body)
    (met : Met (session.expire now) endpoints.source now peer) {nonce : List UInt8}
    (asked : request body endpoints = some nonce) (due : elapsed peer.lastReply now = true)
    (drawn : Nonce) :
    control REPLY nonce ∈ (session.receive digest packet endpoints now (.ok drawn)).2.controls := by
  have answered : answer body endpoints now peer =
      ({ peer with lastReply := some now }, [control REPLY nonce]) := by
    simp [answer, asked, due]
  have kept : ∀ (aged : MacSession) record controls, control REPLY nonce ∈ controls →
      control REPLY nonce ∈
        (reported (aged.decideOn body endpoints now (.ok drawn) record controls).2).controls := by
    intro aged record controls member
    unfold decideOn
    split
    · exact member
    · split
      · exact member
      · split
        · split
          · exact List.mem_append_left _ member
          · exact member
        · split <;> exact member
  rw [receive_authentic authentic met, answered]
  exact kept _ _ _ (List.mem_singleton.mpr rfl)

end Receiving

/-! ## Along the calls of a session -/

/-- `now` is less than `span` after `start`, on a clock that has not run out. -/
def Before (now start span : UInt64) : Prop :=
  now.toNat < start.toNat + span.toNat ∧ now.toNat < u64Max

variable {now : UInt64}

theorem before_iff {start span : UInt64} : Before now start span ↔ now < satAdd start span := by
  rw [UInt64.lt_iff_toNat_lt, toNat_satAdd]
  unfold Before
  omega

def MacCall.time? : MacCall → Option UInt64
  | .sign _ _ _ => none
  | .receive _ _ now _ => some now
  | .expire now => some now

/-- `holds` of the session and its history before each of the calls. -/
def AtEachCall (digest : MacKey → List UInt8 → List UInt8) (session : MacSession)
    (calls : List MacCall)
    (holds : MacSession → List (MacCall × List MacReception) → MacCall → Prop) : Prop :=
  ∀ front call back, calls = front ++ call :: back →
    holds (session.play digest front).1 (session.play digest front).2 call

theorem play_concat (session : MacSession) (front : List MacCall) (call : MacCall) :
    session.play digest (front ++ [call]) =
      (((session.play digest front).1.call digest call).1,
        (session.play digest front).2 ++
          [(call, ((session.play digest front).1.call digest call).2)]) := by
  induction front generalizing session with
  | nil => rfl
  | cons first rest ih => simp [MacSession.play, ih]

/-- What each call keeps under its guard, the calls keep. -/
theorem AtEachCall.keeps {session : MacSession} {calls : List MacCall}
    {holds : MacSession → List (MacCall × List MacReception) → MacCall → Prop}
    (always : AtEachCall digest session calls holds)
    (Inv : MacSession → List (MacCall × List MacReception) → Prop) (start : Inv session [])
    (step : ∀ state history call, Inv state history → holds state history call →
      Inv (state.call digest call).1 (history ++ [(call, (state.call digest call).2)])) :
    Inv (session.play digest calls).1 (session.play digest calls).2 := by
  induction calls using List.reverseRecOn with
  | nil => exact start
  | append_singleton front call ih =>
    rw [play_concat]
    refine step _ _ call (ih fun first next back split => ?_) (always front call [] rfl)
    exact always first next (back ++ [call]) (by simp [split])

theorem play_config (session : MacSession) (calls : List MacCall) :
    (session.play digest calls).1.config = session.config := by
  induction calls generalizing session with
  | nil => rfl
  | cons call rest ih =>
    have one : (session.call digest call).1.config = session.config := by
      cases call with
      | sign packet endpoints draw => exact (sign_peers digest session packet endpoints draw).2.1
      | receive packet endpoints now draw =>
        exact (receive_numbers digest session packet endpoints now draw).2.2
      | expire now => rfl
    exact (ih _).trans one

theorem signs_signedBy (session : MacSession) (calls : List MacCall) :
    ∀ signed ∈ session.signs digest calls, ∃ numberer packet,
      SignedBy digest numberer packet signed.2 signed.1 ∧ numberer.config = session.config := by
  induction calls generalizing session with
  | nil => intro signed member; cases member
  | cons call rest ih =>
    intro signed member
    rw [signs_cons, List.mem_append] at member
    rcases member with now | later
    · cases call with
      | sign packet endpoints draw =>
        cases made : session.sign digest packet endpoints draw with
        | mk after result =>
          cases result with
          | error error => simp [signs, made, Except.toOption] at now
          | ok datagram =>
            obtain ⟨numberer, renews, -, signedBy⟩ := sign_eq_ok made
            simp only [signs, made, Except.toOption, Option.toList_some, List.map_cons,
              List.map_nil, List.append_nil, List.mem_singleton] at now
            subst now
            exact ⟨numberer, packet, signedBy, (renewed_cases renews).2.2.1⟩
      | receive packet endpoints instant draw => simp [signs] at now
      | expire instant => simp [signs] at now
    · obtain ⟨numberer, packet, signedBy, same⟩ := ih _ signed later
      have kept : (session.play digest [call]).1.config = session.config :=
        play_config session [call]
      exact ⟨numberer, packet, signedBy, same.trans kept⟩

/-! ## The record of a peer between two datagrams -/

variable {ledger : Ledger} {next : MacSession} {floor : UInt32}

section Records
variable {state : MacSession} {source : SocketAddr} {peer : MacPeer} {call : MacCall}

variable (digest) in
/-- A record that does not expire is left alone by a call, or judged a datagram of its peer. -/
theorem call_record (strict : state.config.isStrict = true)
    (known : state.peers.get? source = some peer)
    (alive : ∀ now, call.time? = some now → now < peer.expires) :
    ((state.call digest call).1.peers.get? source = some peer ∧
      ∀ ledger : Ledger, ledger.note source (call, (state.call digest call).2) = ledger) ∨
    ∃ packet endpoints now draw, call = .receive packet endpoints now draw ∧
      endpoints.source = source ∧
      Outcome (state.expire now) (bodyOf packet) endpoints now draw peer
        (state.receive digest packet endpoints now draw).1
        (state.receive digest packet endpoints now draw).2 := by
  have aged : ∀ now, call.time? = some now → (state.expire now).peers.get? source = some peer :=
    fun now dated => get?_expire.mpr ⟨known, alive now dated⟩
  cases call with
  | sign packet endpoints draw =>
    left
    rw [MacSession.call, (sign_peers digest state packet endpoints draw).1]
    exact ⟨known, fun _ => rfl⟩
  | expire now => exact .inl ⟨aged now rfl, fun _ => rfl⟩
  | receive packet endpoints now draw =>
    have kept := aged now rfl
    rcases receive_cases digest strict packet endpoints now draw with
      quiet | ⟨body, judged, authentic, met, outcome⟩
    · left
      rw [MacSession.call, quiet]
      refine ⟨kept, fun ledger => ?_⟩
      by_cases here : endpoints.source = source
      · simp only [Ledger.note, here, if_true, Bool.false_eq_true, if_false]
        exact Ledger.issue_silent fun _ => List.not_mem_nil
      · exact Ledger.note_other here
    · by_cases here : endpoints.source = source
      · right
        refine ⟨packet, endpoints, now, draw, rfl, here, ?_⟩
        rw [bodyOf_authentic authentic]
        cases met with
        | again found =>
          rw [here, kept] at found
          obtain rfl := Option.some.inj found
          exact outcome
        | first unknown room => rw [here, kept] at unknown; cases unknown
      · left
        obtain ⟨after, stored⟩ := outcome.stored
        rw [MacSession.call]
        refine ⟨?_, fun ledger => Ledger.note_other here⟩
        rw [stored, AssocMap.get?_insert_of_ne _ _ here, kept]

theorem get?_putPeer (session : MacSession) (source : SocketAddr) (peer : MacPeer) :
    (session.putPeer source peer).peers.get? source = some peer := by
  simp [putPeer]

def Tracks (ledger : Ledger) (peer : MacPeer) : Prop :=
  ∀ nonce issued, ledger.challenge = some (nonce, issued) →
    peer.nonce = some (nonce, satAdd issued CHALLENGE_MS)

theorem Tracks.outcome {reception : MacReception} (tracks : Tracks ledger peer)
    (records : Records ledger peer)
    (outcome : Outcome state (bodyOf packet) endpoints now draw peer next reception) :
    ∃ after, next.peers.get? endpoints.source = some after ∧
      Tracks (ledger.note endpoints.source (.receive packet endpoints now draw, [reception]))
        after := by
  simp only [Ledger.note, if_true]
  cases outcome with
  | kept refused silent =>
    refine ⟨_, get?_putPeer _ _ _, ?_⟩
    rw [refused, Ledger.issue_silent silent]
    exact tracks
  | challenged drawn labelled unproved noAnswer refused issued =>
    rename_i lastReply fresh pc index
    refine ⟨_, get?_putPeer _ _ _, ?_⟩
    have noted : ledger.issue reception draw now =
        { ledger with challenge := some (fresh, now) } := by
      rw [drawn]
      simp only [Ledger.issue, (issued fresh).mpr rfl, if_true]
    rw [refused, if_neg Bool.false_ne_true, noted]
    intro nonce instant outstanding
    obtain ⟨rfl, rfl⟩ := Prod.mk.inj (Option.some.inj outstanding)
    rfl
  | answered labelled answers accepted silent =>
    refine ⟨_, get?_putPeer _ _ _, ?_⟩
    rw [accepted, if_pos rfl, Ledger.accept, labelled]
    simp only [records.answers_of_success answers, if_true]
    intro nonce issued impossible
    cases impossible
  | counted labelled noAnswer current above accepted silent =>
    refine ⟨_, get?_putPeer _ _ _, ?_⟩
    rw [accepted, if_pos rfl, Ledger.accept, labelled]
    intro nonce issued outstanding
    simp only at outstanding
    split at outstanding
    · cases outstanding
    · exact tracks nonce issued outstanding

/-- The record has proved `index`, and each of its counters is `floor` or that of a datagram
accepted since. -/
structure Follows (index : List UInt8) (floor : UInt32) (ledger : Ledger) (peer : MacPeer) :
    Prop where
  index : peer.index = some index
  counter : ∀ channel, peer.counter channel = floor ∨
    (channel, peer.counter channel) ∈ ledger.since

theorem Follows.outcome {reception : MacReception} (follows : Follows index floor ledger peer)
    (records : Records ledger peer)
    (plain : reception.accepted = true → ledger.answers (bodyOf packet) now = false)
    (outcome : Outcome state (bodyOf packet) endpoints now draw peer next reception) :
    ∃ after, next.peers.get? endpoints.source = some after ∧
      Follows index floor
        (ledger.note endpoints.source (.receive packet endpoints now draw, [reception])) after := by
  simp only [Ledger.note, if_true]
  cases outcome with
  | kept refused silent =>
    refine ⟨_, get?_putPeer _ _ _, ?_⟩
    rw [refused, Ledger.issue_silent silent]
    exact ⟨follows.index, follows.counter⟩
  | challenged drawn labelled unproved noAnswer refused issued =>
    rename_i lastReply fresh pc other
    refine ⟨_, get?_putPeer _ _ _, ?_⟩
    have since : (ledger.issue reception draw now).since = ledger.since := by
      rw [drawn]
      simp only [Ledger.issue, (issued fresh).mpr rfl, if_true]
    rw [refused, if_neg Bool.false_ne_true]
    exact ⟨follows.index, fun channel => since ▸ follows.counter channel⟩
  | answered labelled answers accepted silent =>
    have known := records.answers_of_success answers
    rw [plain accepted] at known
    cases known
  | counted labelled noAnswer current above accepted silent =>
    refine ⟨_, get?_putPeer _ _ _, ?_⟩
    rw [accepted, if_pos rfl, Ledger.accept, labelled]
    simp only [plain accepted, Bool.false_eq_true, if_false]
    refine ⟨follows.index, fun channel => ?_⟩
    rw [Records.counter_raised]
    split
    · rename_i same
      exact .inr (same ▸ List.mem_cons_self)
    · rcases follows.counter channel with low | counted
      · exact .inl low
      · exact .inr (List.mem_cons_of_mem _ counted)

end Records

/-! ## Runs of the receiver -/

def Room (session : MacSession) (source : SocketAddr) (now : UInt64) : Prop :=
  ((session.expire now).peers.get? source).isSome ∨
    (session.expire now).peers.len < session.maxPeers

theorem Room.met {session : MacSession} {source : SocketAddr} (room : Room session source now) :
    ∃ peer, Met (session.expire now) source now peer := by
  cases known : (session.expire now).peers.get? source with
  | some peer => exact ⟨peer, .again known⟩
  | none =>
    have free := room.resolve_left (by simp [known])
    exact ⟨_, .first known free⟩

/-- The call finds the record of `source` still alive. -/
def Survives (source : SocketAddr) (session : MacSession) (call : MacCall) : Prop :=
  ∀ now, call.time? = some now → ((session.expire now).peers.get? source).isSome

def Ledger.Recent (ledger : Ledger) (now : UInt64) : Prop :=
  ∃ last, ledger.last = some last ∧ Before now last EXPIRE_MS

/-- The call comes in time after the last acceptance from `source`, and does not accept the
answer to a further challenge from it. -/
def Steady (digest : MacKey → List UInt8 → List UInt8) (source : SocketAddr) (ledger : Ledger)
    (session : MacSession) (call : MacCall) : Prop :=
  (∀ now, call.time? = some now → ledger.Recent now) ∧
    ∀ packet endpoints now draw, call = .receive packet endpoints now draw →
      endpoints.source = source →
      (session.receive digest packet endpoints now draw).2.accepted = true →
      ledger.answers (bodyOf packet) now = false

section Runs
variable {config : MacConfig} {maxPeers : Nat} {story : List (MacCall × List MacReception)}
  {session : MacSession} {source : SocketAddr} {calls : List MacCall}

theorem Records.alive {peer : MacPeer} (records : Records ledger peer)
    (proved : peer.index = some index) (recent : ledger.Recent now) : now < peer.expires := by
  obtain ⟨last, known, expires⟩ := records.last index proved
  obtain ⟨other, same, before⟩ := recent
  obtain rfl := Option.some.inj (known.symm.trans same)
  exact expires ▸ before_iff.mp before

/-- An unexpired record keeps track of its challenge. -/
theorem tracks_kept (strict : config.isStrict = true)
    (run : MacRun digest config maxPeers story session)
    (tracked : ∃ peer, session.peers.get? source = some peer ∧
      Tracks (ledgerOf source story) peer)
    (always : AtEachCall digest session calls fun state _ call => Survives source state call) :
    ∃ peer, (session.play digest calls).1.peers.get? source = some peer ∧
      Tracks (ledgerOf source (story ++ (session.play digest calls).2)) peer := by
  have kept := always.keeps (fun state later =>
    MacRun digest config maxPeers (story ++ later) state ∧
      ∃ peer, state.peers.get? source = some peer ∧ Tracks (ledgerOf source (story ++ later)) peer)
    ⟨by simpa using run, by simpa using tracked⟩ ?_
  · exact kept.2
  · rintro state later call ⟨reached, peer, known, tracks⟩ survives
    have recorded := Recorded.of_run strict reached
    rw [← List.append_assoc, ledgerOf_concat]
    refine ⟨.step reached rfl, ?_⟩
    have alive : ∀ now, call.time? = some now → now < peer.expires := by
      intro now dated
      obtain ⟨found, survivor⟩ := Option.isSome_iff_exists.mp (survives now dated)
      obtain ⟨same, live⟩ := get?_expire.mp survivor
      exact Option.some.inj (known.symm.trans same) ▸ live
    rcases call_record digest (recorded.config ▸ strict) known alive with
      ⟨same, unchanged⟩ | ⟨packet, endpoints, now, draw, rfl, rfl, outcome⟩
    · exact ⟨peer, same, (unchanged _).symm ▸ tracks⟩
    · exact tracks.outcome (recorded.agrees _ peer known) outcome

/-- A record that has proved an index follows its peer until a further challenge is answered. -/
theorem follows_kept (strict : config.isStrict = true)
    (run : MacRun digest config maxPeers story session)
    (followed : ∃ peer, session.peers.get? source = some peer ∧
      Follows index floor (ledgerOf source story) peer)
    (always : AtEachCall digest session calls fun state later call =>
      Steady digest source (ledgerOf source (story ++ later)) state call) :
    ∃ peer, (session.play digest calls).1.peers.get? source = some peer ∧
      Follows index floor (ledgerOf source (story ++ (session.play digest calls).2)) peer := by
  have kept := always.keeps (fun state later =>
    MacRun digest config maxPeers (story ++ later) state ∧
      ∃ peer, state.peers.get? source = some peer ∧
        Follows index floor (ledgerOf source (story ++ later)) peer)
    ⟨by simpa using run, by simpa using followed⟩ ?_
  · exact kept.2
  · rintro state later call ⟨reached, peer, known, follows⟩ ⟨timely, plain⟩
    have recorded := Recorded.of_run strict reached
    have records := recorded.agrees source peer known
    rw [← List.append_assoc, ledgerOf_concat]
    refine ⟨.step reached rfl, ?_⟩
    rcases call_record digest (recorded.config ▸ strict) known
        (fun now dated => records.alive follows.index (timely now dated)) with
      ⟨same, unchanged⟩ | ⟨packet, endpoints, now, draw, rfl, rfl, outcome⟩
    · exact ⟨peer, same, (unchanged _).symm ▸ follows⟩
    · exact follows.outcome records (plain packet endpoints now draw rfl rfl) outcome

end Runs

/-! ## Requests and replies on the wire -/

section Controls
variable {numberer : MacSession} {datagram : List UInt8} {endpoints : DatagramEndpoints}
  {nonce : Nonce}

theorem SignedBy.control_body {type : UInt8} (proper : type ≠ 0)
    (signed : SignedBy digest numberer (control type nonce.val) endpoints datagram) :
    bodyOf datagram = [(type, nonce.val), pcTlv numberer] := by
  obtain ⟨found, parsed, -, -, body⟩ := signed.bodyOf_eq
  have octets : (control type nonce.val).drop 4 =
      type :: UInt8.ofNat nonce.val.length :: nonce.val ++ [] := by
    obtain ⟨high, low, header⟩ : ∃ high low, toBe 2 (nonce.val.length + 2) = [high, low] :=
      List.length_eq_two.mp (length_toBe 2 _)
    simp [Mac.control, header]
  have small : nonce.val.length < 256 := by
    omega
  rw [octets, tlvs_frame proper small] at parsed
  obtain rfl : [(type, nonce.val)] = found := Except.ok.inj parsed
  exact body

theorem SignedBy.asks
    (signed : SignedBy digest numberer (control REQUEST nonce.val) endpoints datagram)
    (unicast : endpoints.multicast = false) :
    request (bodyOf datagram) endpoints = some nonce.val := by
  have short : nonce.val.length ≤ 192 := by
    omega
  rw [signed.control_body (by decide)]
  simp [request, pcTlv, unicast, short, PC, REQUEST]

theorem SignedBy.replies
    (signed : SignedBy digest numberer (control REPLY nonce.val) endpoints datagram) :
    MacSession.replies (bodyOf datagram) nonce.val = true := by
  have short : nonce.val.length ≤ 192 := by
    omega
  rw [signed.control_body (by decide)]
  simp [MacSession.replies, short]

end Controls

/-! ## The steps of a handshake -/

/-- What a receiver makes of the datagram `sign` returned: it is authentic, carries the number
the signer had, and the signer goes on with the next one. -/
theorem sign_authentic {signer : MacSession} {config : MacConfig} {key : MacKey}
    (sized : Sized digest) (signs : signer.sign digest packet endpoints draw = (next, .ok datagram))
    (theirs : key ∈ signer.config.keys) (ours : key ∈ config.keys) :
    Authentic digest config datagram endpoints (bodyOf datagram) ∧
      ∃ numberer, SignedBy digest numberer packet endpoints datagram ∧
        packetCounter (bodyOf datagram) = some (numberer.counter, next.index.val) ∧
        numberer.counter < next.counter := by
  obtain ⟨numberer, renews, rfl, signed⟩ := sign_eq_ok signs
  obtain ⟨spare, -, sameConfig, -⟩ := renewed_cases renews
  exact ⟨signed.authentic sized (sameConfig ▸ theirs) ours, numberer, signed,
    signed.packetCounter_eq, lt_add_one spare⟩

/-- The request a receiver sends out is on its record and in its ledger. -/
theorem asked_tracks {session : MacSession} {source : SocketAddr} {nonce : Nonce} {t1 : UInt64}
    (past : List (MacCall × List MacReception)) {peer : MacPeer}
    (refused : (session.receive digest datagram endpoints t1 (.ok nonce)).2.accepted = false)
    (issued : control REQUEST nonce.val ∈
      (session.receive digest datagram endpoints t1 (.ok nonce)).2.controls)
    (here : endpoints.source = source) (nonceEq : peer.nonce = some (nonce, satAdd t1 CHALLENGE_MS)) :
    Tracks (ledgerOf source (past ++ [(.receive datagram endpoints t1 (.ok nonce),
      [(session.receive digest datagram endpoints t1 (.ok nonce)).2])])) peer := by
  have noted : ((ledgerOf source past).note source (.receive datagram endpoints t1 (.ok nonce),
      [(session.receive digest datagram endpoints t1 (.ok nonce)).2])).challenge =
      some (nonce, t1) := by
    simp only [Ledger.note, here, if_true, refused, Bool.false_eq_true, if_false, Ledger.issue]
    rw [if_pos (show MacReception.Issues _ _ from issued)]
  rw [ledgerOf_concat]
  intro other instant outstanding
  obtain ⟨rfl, rfl⟩ := Prod.mk.inj (Option.some.inj (noted.symm.trans outstanding))
  exact nonceEq

section Handshake
variable {config : MacConfig} {maxPeers : Nat} {story : List (MacCall × List MacReception)}
  {receiver signer next : MacSession} {datagram : List UInt8} {endpoints : DatagramEndpoints}
  {draw drawn : Draw} {key : MacKey} {nonce : Nonce} {t1 now : UInt64}

theorem request_answered (sized : Sized digest)
    (signs : signer.sign digest (control REQUEST nonce.val) endpoints draw = (next, .ok datagram))
    (theirs : key ∈ signer.config.keys) (ours : key ∈ receiver.config.keys)
    (unicast : endpoints.multicast = false) (room : Room receiver endpoints.source now)
    (due : ∀ peer, receiver.peers.get? endpoints.source = some peer → now < peer.expires →
      elapsed peer.lastReply now = true) (value : Nonce) :
    control REPLY nonce.val ∈
      (receiver.receive digest datagram endpoints now (.ok value)).2.controls := by
  obtain ⟨authentic, numberer, signed, -⟩ := sign_authentic sized signs theirs ours
  obtain ⟨peer, met⟩ := room.met
  refine receive_request authentic met (signed.asks unicast) ?_ value
  cases met with
  | again known => exact due peer (get?_expire.mp known).1 (get?_expire.mp known).2
  | first unknown room => rfl

theorem reply_accepted (story : List (MacCall × List MacReception)) (sized : Sized digest)
    (signs : signer.sign digest (control REPLY nonce.val) endpoints draw = (next, .ok datagram))
    (theirs : key ∈ signer.config.keys) (ours : key ∈ receiver.config.keys)
    (tracked : ∃ peer, receiver.peers.get? endpoints.source = some peer ∧
      Tracks (ledgerOf endpoints.source story) peer)
    (survives : Survives endpoints.source receiver (.expire now))
    (outstanding : (ledgerOf endpoints.source story).challenge = some (nonce, t1))
    (inTime : Before now t1 CHALLENGE_MS) :
    (receiver.receive digest datagram endpoints now drawn).2.accepted = true ∧
      ∃ floor < next.counter, ∃ after,
        (receiver.receive digest datagram endpoints now drawn).1.peers.get? endpoints.source =
          some after ∧ after.index = some next.index.val ∧
        ∀ channel, after.counter channel = floor := by
  obtain ⟨authentic, numberer, signed, labelled, below⟩ := sign_authentic sized signs theirs ours
  obtain ⟨peer, known, tracks⟩ := tracked
  obtain ⟨survivor, alive⟩ := Option.isSome_iff_exists.mp (survives now rfl)
  have same : survivor = peer :=
    Option.some.inj ((get?_expire.mp alive).1.symm.trans known)
  have answers : success (bodyOf datagram) peer now = true := by
    simp only [success, tracks nonce t1 outstanding, Bool.and_eq_true, decide_eq_true_eq]
    exact ⟨before_iff.mp inTime, signed.replies⟩
  obtain ⟨accepted, after⟩ := receive_answer authentic (.again (same ▸ alive)) labelled answers
  exact ⟨accepted, numberer.counter, below, after⟩

/-- What follows the reply under its index, above what was accepted since, is accepted. -/
theorem follower_accepted (sized : Sized digest) (strict : config.isStrict = true)
    (run : MacRun digest config maxPeers story receiver) {index : Nonce} {calls : List MacCall}
    {signed : List UInt8 × DatagramEndpoints}
    (followed : ∃ peer, receiver.peers.get? signed.2.source = some peer ∧
      Follows index.val floor (ledgerOf signed.2.source story) peer)
    (member : signed ∈ signer.signs digest calls) (theirs : key ∈ signer.config.keys)
    (ours : key ∈ config.keys) (numbered : numberOf signed.1 = some (pc, index.val))
    (above : floor < pc) (recent : (ledgerOf signed.2.source story).Recent now)
    (ordered : ∀ entry ∈ (ledgerOf signed.2.source story).since,
      entry.1 = signed.2.multicast → entry.2 < pc) :
    (receiver.receive digest signed.1 signed.2 now drawn).2.accepted = true := by
  have recorded := Recorded.of_run strict run
  obtain ⟨peer, known, follows⟩ := followed
  obtain ⟨numberer, packet, signedBy, sameConfig⟩ := signs_signedBy signer calls signed member
  have authentic : Authentic digest receiver.config signed.1 signed.2 (bodyOf signed.1) :=
    signedBy.authentic sized (sameConfig ▸ theirs) (recorded.config ▸ ours)
  have alive := (recorded.agrees _ peer known).alive follows.index recent
  refine receive_in_order authentic (.again (get?_expire.mpr ⟨known, alive⟩)) numbered
    follows.index ?_
  rcases follows.counter signed.2.multicast with low | counted
  · exact low ▸ above
  · exact ordered _ counted rfl

end Handshake

/-! ## Interoperation -/

/-- Two strict sessions that share a key.  What `a` signs keeps its TLVs, passes the check of
`b` and is numbered apart.  If `b` does not hold the index of `a`, a datagram of `a` draws a
request, the request draws a reply, and the reply is accepted; from then on `b` accepts the
later datagrams of that index that exceed what it accepted on their channel. -/
theorem sessions_interoperate {config : MacConfig} {maxPeers : Nat}
    {past : List (MacCall × List MacReception)} {a b : MacSession} {key : MacKey}
    (sized : Sized digest) (strict : config.isStrict = true)
    (run : MacRun digest config maxPeers past b)
    (theirs : key ∈ a.config.keys) (ours : key ∈ config.keys) :
    (∀ packet endpoints draw next datagram,
      a.sign digest packet endpoints draw = (next, .ok datagram) →
      datagram.length = packet.length + a.config.overhead ∧
      (∃ value, ∀ context, Wire.decodePacket datagram context =
        (Wire.decodePacket packet context).map fun decoded =>
          ⟨decoded.tlvs ++ [.unknown 17 value]⟩) ∧
      b.verifies digest datagram endpoints = true) ∧
    (∀ calls, (a.index :: a.renewals digest calls).Nodup →
      ((a.signs digest calls).map fun signed => numberOf signed.1).Nodup) ∧
    ∀ packet fromA draw a1 datagram, a.sign digest packet fromA draw = (a1, .ok datagram) →
    ∀ t1 nonce,
      (∀ peer, b.peers.get? fromA.source = some peer → t1 < peer.expires →
        peer.index ≠ some a1.index.val) →
      Room b fromA.source t1 → elapsed b.lastChallenge t1 = true →
    let asked := b.receive digest datagram fromA t1 (.ok nonce)
    asked.2.accepted = true ∨
    (control REQUEST nonce.val ∈ asked.2.controls ∧
      (∀ callsB fromB drawB b2 request,
        (asked.1.play digest callsB).1.sign digest (control REQUEST nonce.val) fromB drawB =
          (b2, .ok request) → fromB.multicast = false →
        ∀ callsA t2 drawn,
          let a2 := (a1.play digest callsA).1
          Room a2 fromB.source t2 →
          (∀ peer, a2.peers.get? fromB.source = some peer → t2 < peer.expires →
            elapsed peer.lastReply t2 = true) →
          control REPLY nonce.val ∈ (a2.receive digest request fromB t2 (.ok drawn)).2.controls) ∧
      ∀ callsA back drawA a3 reply,
        (a1.play digest callsA).1.sign digest (control REPLY nonce.val) back drawA =
          (a3, .ok reply) → back.source = fromA.source →
        ∀ callsB t3 draw3,
          let waited := asked.1.play digest callsB
          let story := past ++ (.receive datagram fromA t1 (.ok nonce), [asked.2]) :: waited.2
          AtEachCall digest asked.1 callsB (fun state _ call => Survives fromA.source state call) →
          Survives fromA.source waited.1 (.expire t3) →
          (ledgerOf fromA.source story).challenge = some (nonce, t1) →
          Before t3 t1 CHALLENGE_MS →
          let heard := waited.1.receive digest reply back t3 draw3
          heard.2.accepted = true ∧
          ∀ laterA, (a3.index :: a3.renewals digest laterA).Nodup →
          ∀ signed ∈ a3.signs digest laterA, ∀ pc, numberOf signed.1 = some (pc, a3.index.val) →
            signed.2.source = fromA.source →
          ∀ laterB,
            let story := story ++ [(.receive reply back t3 draw3, [heard.2])]
            AtEachCall digest heard.1 laterB (fun state later call =>
              Steady digest fromA.source (ledgerOf fromA.source (story ++ later)) state call) →
            let final := heard.1.play digest laterB
            let ledger := ledgerOf fromA.source (story ++ final.2)
            ∀ t draw, ledger.Recent t →
              (∀ entry ∈ ledger.since, entry.1 = signed.2.multicast → entry.2 < pc) →
              (final.1.receive digest signed.1 signed.2 t draw).2.accepted = true) := by
  have same : b.config = config := (Recorded.of_run strict run).config
  refine ⟨?usable, fun calls => signs_numbers_nodup a calls, ?handshake⟩
  case usable =>
    intro packet endpoints draw next datagram signs
    obtain ⟨authentic, -⟩ := sign_authentic sized signs theirs (same ▸ ours)
    obtain ⟨numberer, renews, -, signed⟩ := sign_eq_ok signs
    have sameConfig := (renewed_cases renews).2.2.1
    exact ⟨sameConfig ▸ signed.length_eq sized, ⟨_, signed.decodes⟩, authentic.verifies⟩
  case handshake =>
    intro packet fromA draw a1 datagram signs t1 nonce unheld room due asked
    obtain ⟨authentic, numberer, signed, labelled, -⟩ :=
      sign_authentic sized signs theirs (same ▸ ours : key ∈ b.config.keys)
    obtain ⟨judged, met⟩ := room.met
    have unproved : judged.index ≠ some a1.index.val := by
      cases met with
      | again known => exact unheld judged (get?_expire.mp known).1 (get?_expire.mp known).2
      | first unknown free => exact fun impossible => by cases impossible
    have keysA : a1.config = a.config := by
      have kept := (sign_peers digest a packet fromA draw).2.1
      rwa [signs] at kept
    by_cases accepted : asked.2.accepted = true
    · exact .inl accepted
    have refused : asked.2.accepted = false := Bool.not_eq_true _ ▸ accepted
    obtain ⟨issued, peer, stored, nonceEq⟩ :=
      (receive_unknown_index authentic met labelled unproved due nonce).resolve_left accepted
    have askedRun : MacRun digest config maxPeers
        (past ++ [(.receive datagram fromA t1 (.ok nonce), [asked.2])]) asked.1 := .step run rfl
    have keysB : ∀ calls, (asked.1.play digest calls).1.config = config := fun calls =>
      (play_config asked.1 calls).trans (Recorded.of_run strict askedRun).config
    refine .inr ⟨issued, ?request, ?reply⟩
    case request =>
      intro callsB fromB drawB b2 request signsB unicast callsA t2 drawn a2 room2 due2
      exact request_answered sized signsB (keysB callsB ▸ ours)
        ((play_config a1 callsA).trans keysA ▸ theirs) unicast room2 due2 drawn
    case reply =>
      intro callsA back drawA a3 reply signsA sameSource callsB t3 draw3 waited story always
        survives outstanding inTime heard
      have tracked := tracks_kept strict askedRun
        ⟨peer, stored, asked_tracks past refused issued rfl nonceEq⟩ always
      have waitedRun : MacRun digest config maxPeers story waited.1 := by
        simpa [story, List.append_assoc] using askedRun.play callsB
      rw [List.append_assoc] at tracked
      have keysA' : (a1.play digest callsA).1.config = a.config :=
        (play_config a1 callsA).trans keysA
      have keysA3 : a3.config = a.config := by
        have kept := (sign_peers digest (a1.play digest callsA).1 (control REPLY nonce.val) back
          drawA).2.1
        rw [signsA] at kept
        exact kept.trans keysA'
      obtain ⟨acceptedReply, floor, below, after, storedReply, proved, counters⟩ :=
        reply_accepted story sized signsA (keysA' ▸ theirs) (keysB callsB ▸ ours)
          (sameSource ▸ tracked) (sameSource ▸ survives) (sameSource ▸ outstanding) inTime
      refine ⟨acceptedReply, ?_⟩
      intro laterA distinct signed member pc numbered sameSource' laterB story' steady final ledger
        t draw recent ordered
      have heardRun : MacRun digest config maxPeers story' heard.1 := .step waitedRun rfl
      have followed := follows_kept strict heardRun
        ⟨after, sameSource ▸ storedReply, ⟨proved, fun channel => .inl (counters channel)⟩⟩ steady
      have above : floor < pc := by
        rcases signs_numbered a3 laterA signed member with
          ⟨counter, started, other⟩ | ⟨index, drawnIndex, counter, other⟩
        · obtain ⟨rfl, -⟩ := Prod.mk.inj (Option.some.inj (numbered.symm.trans other))
          exact UInt32.lt_of_lt_of_le below started
        · have sameIndex := Subtype.ext
            (Prod.mk.inj (Option.some.inj (numbered.symm.trans other))).2
          exact absurd (sameIndex ▸ drawnIndex) (List.nodup_cons.mp distinct).1
      exact follower_accepted sized strict (heardRun.play laterB) (sameSource' ▸ followed) member
        (keysA3 ▸ theirs) ours numbered above (sameSource' ▸ recent) (sameSource' ▸ ordered)

/-! ## Exchanges between two neighbours -/

namespace Handshake

/-- A digest of the right size, for evaluating concrete runs. -/
def shortDigest (key : MacKey) (data : List UInt8) : List UInt8 :=
  (key.bytes ++ data ++ List.replicate 32 0).take
    (match key.algorithm with
      | .hmacSha256 => 32
      | .blake2s128 => 16)

theorem shortDigest_sized : Sized shortDigest := by
  intro key data
  simp only [shortDigest, List.length_take, List.length_append, List.length_replicate]
  cases key.algorithm <;> simp only <;> omega

def toAlice : DatagramEndpoints := ⟨bob, alice⟩

/-- The group 224.0.0.111. -/
def toAll : DatagramEndpoints := ⟨alice, .v4 0xe000006f 6696⟩

def post (session : MacSession) (packet : List UInt8) (endpoints : DatagramEndpoints) :
    MacSession × List UInt8 :=
  match session.sign shortDigest packet endpoints (.error .entropy) with
  | (next, .ok datagram) => (next, datagram)
  | (next, .error _) => (next, [])

def take (session : MacSession) (datagram : List UInt8) (endpoints : DatagramEndpoints)
    (now : UInt64) (octet : UInt8) : MacSession × MacReception :=
  session.receive shortDigest datagram endpoints now (.ok (nonce octet))

/-- Alice says hello, and Bob, who does not know her, asks. -/
def greeting : MacSession × List UInt8 := post (session 1) hello toBob

def asked : MacSession × MacReception := take (session 2) greeting.2 toBob 0 9

def request : List UInt8 := (post asked.1 (control REQUEST (nonce 9).val) toAlice).2

/-- The request reaches Alice twice, and she replies twice. -/
def once : MacSession × MacReception := take greeting.1 request toAlice 100 7

def early : MacSession × List UInt8 := post once.1 (reply 9) toBob

def twice : MacSession × MacReception := take early.1 request toAlice 400 7

def late : MacSession × List UInt8 := post twice.1 (reply 9) toBob

/-- Bob hears the first reply, and then a datagram of a session Alice had before. -/
def heard : MacSession × MacReception := take asked.1 early.2 toBob 110 5

def stray : MacSession × MacReception := take heard.1 (post (session 3) hello toBob).2 toBob 400 8

def multicast : MacSession × List UInt8 := post early.1 hello toAll

def again : MacSession × List UInt8 := post multicast.1 (reply 8) toBob

def renewed : MacSession × MacReception := take stray.1 again.2 toBob 410 5

end Handshake

open Handshake in
/-- A reply overtaken by a second one to the same request is refused; so is a multicast
datagram, the first on its channel, overtaken by the reply to a further request. -/
theorem overtaken_datagrams_are_refused :
    (control REQUEST (nonce 9).val ∈ asked.2.controls ∧ reply 9 ∈ once.2.controls ∧
      reply 9 ∈ twice.2.controls ∧ (take asked.1 late.2 toBob 500 5).2.accepted = true ∧
      (take (take asked.1 late.2 toBob 500 5).1 early.2 toBob 510 5).2.accepted = false) ∧
    (heard.2.accepted = true ∧ control REQUEST (nonce 8).val ∈ stray.2.controls ∧
      renewed.2.accepted = true ∧
      numberOf early.2 = some (1, (nonce 1).val) ∧ numberOf multicast.2 = some (2, (nonce 1).val) ∧
      (take renewed.1 multicast.2 toAll 420 5).2.accepted = false) := by
  decide +kernel

open Handshake in
/-- The handshake on two new sessions, and the datagram after it. -/
theorem greeted_follower_is_accepted :
    (heard.1.receive shortDigest (post early.1 hello toBob).2 toBob 200 (.error .entropy)).2.accepted
      = true := by
  have begun : MacRun shortDigest config 16 [] (session 2) := .start ⟨.ok (nonce 2), rfl⟩
  have quiet : ∀ (receiver : MacSession) holds, AtEachCall shortDigest receiver [] holds :=
    fun _ _ front call back split => by simp at split
  have greets : (session 1).sign shortDigest hello toBob (.error .entropy) =
      (greeting.1, .ok greeting.2) := rfl
  have replies : once.1.sign shortDigest (control REPLY (nonce 9).val) toBob (.error .entropy) =
      (early.1, .ok early.2) := rfl
  have stranger : ∀ peer, (session 2).peers.get? toBob.source = some peer → (0 : UInt64) <
      peer.expires → peer.index ≠ some greeting.1.index.val := fun peer known => by cases known
  have handshake := ((sessions_interoperate shortDigest_sized (by decide) begun
    (List.mem_singleton.mpr rfl) (List.mem_singleton.mpr rfl)).2.2 hello toBob (.error .entropy)
    greeting.1 greeting.2 greets 0 (nonce 9) stranger (.inr (by decide)) rfl).resolve_left
    (by decide +kernel)
  have alive : Survives toBob.source asked.1 (.expire 110) := by
    intro now dated
    cases dated
    decide +kernel
  have accepted := handshake.2.2
    [.receive request toAlice 100 (.ok (nonce 7))] toBob (.error .entropy) early.1 early.2 replies
    rfl [] 110 (.ok (nonce 5)) (quiet _ _) alive (by decide +kernel) (before_iff.mpr (by decide))
  refine accepted.2 [.sign hello toBob (.error .entropy)] (by decide +kernel)
    ((post early.1 hello toBob).2, toBob) (by decide +kernel) 2 (by decide +kernel) rfl [] (quiet _ _)
    200 (.error .entropy) ⟨110, by decide +kernel, before_iff.mpr (by decide)⟩
    ?_
  -- the entries are checked one by one: as it stands the goal ranges over all numbers
  have each : ∀ since : List (Bool × UInt32), since.all (fun entry => decide (entry.1 = false →
      entry.2 < 2)) = true → ∀ entry ∈ since, entry.1 = false → entry.2 < 2 :=
    fun _ all entry listed => of_decide_eq_true (List.all_eq_true.mp all entry listed)
  exact each _ (by decide +kernel)

end BabelRs
