import BabelRs.Safety.MacHistory

/-!
# What a signed datagram carries

A successful `sign` appends the session's next PC to the body, rewrites the body length and
puts the MACs behind it.  Reading such a datagram back gives the TLVs of the packet
followed by that one PC, whatever stands in the trailer.
-/

set_option autoImplicit false

namespace BabelRs

open Lib Mac MacSession

/-! ## Headers -/

theorem bodyEnd_eq_ok {packet : List UInt8} {stop : Nat} :
    bodyEnd packet = .ok stop ↔ ∃ high low rest, packet = 42 :: 2 :: high :: low :: rest ∧
      stop = 4 + ofBe [high, low] ∧ ofBe [high, low] ≤ rest.length := by
  constructor
  · intro framed
    unfold bodyEnd at framed
    split at framed
    · rename_i magic version high low rest
      split at framed
      · cases framed
      · rename_i right
        obtain ⟨rfl, rfl⟩ : magic = 42 ∧ version = 2 := by
          simpa only [not_or, not_not] using right
        simp only at framed
        split at framed
        · cases framed
        · rename_i whole
          cases framed
          exact ⟨high, low, rest, rfl, rfl, not_lt.mp whole⟩
    · cases framed
  · rintro ⟨high, low, rest, rfl, rfl, whole⟩
    simp [bodyEnd, not_lt.mpr whole]

/-- A header whose length octets count what follows up to the trailer. -/
theorem bodyEnd_framed (content trailer : List UInt8) (small : content.length ≤ 0xffff) :
    bodyEnd ([42, 2] ++ toBe 2 content.length ++ content ++ trailer) =
      .ok (4 + content.length) := by
  obtain ⟨high, low, octets⟩ : ∃ high low, toBe 2 content.length = [high, low] :=
    List.length_eq_two.mp (length_toBe 2 _)
  have value : ofBe [high, low] = content.length := by
    rw [← octets, ofBe_toBe_of_lt (by omega)]
  refine bodyEnd_eq_ok.mpr ⟨high, low, content ++ trailer, ?_, ?_, ?_⟩
  · simp [octets]
  · rw [value]
  · rw [value, List.length_append]
    omega

/-- The octets the MAC covers. -/
def bodyBytes (packet : List UInt8) : List UInt8 :=
  match bodyEnd packet with
  | .ok stop => packet.take stop
  | .error _ => []

theorem bodyOf_eq_of_bodyBytes {left right : List UInt8}
    (same : bodyBytes left = bodyBytes right) : bodyOf left = bodyOf right := by
  have read : ∀ packet, bodyOf packet =
      (tlvs ((bodyBytes packet).drop 4)).toOption.getD [] := by
    intro packet
    unfold bodyOf bodyBytes
    cases bodyEnd packet with
    | error reason => rfl
    | ok stop =>
      dsimp only
      cases tlvs ((packet.take stop).drop 4) <;> rfl
  rw [read, read, same]

/-! ## TLVs of a body -/

theorem tlvs_append {front rest : List UInt8} {found : List (UInt8 × List UInt8)}
    (parsed : tlvs front = .ok found) :
    tlvs (front ++ rest) = (tlvs rest).map fun later => found ++ later := by
  unfold tlvs at parsed ⊢
  split at parsed
  · rename_i whole
    obtain rfl := Except.ok.inj parsed
    rw [frames_append front rest whole]
    simp only [Framed.truncated_precede, Framed.frames_precede, List.filterMap_append]
    cases (frames rest).truncated <;> rfl
  · cases parsed

theorem tlvs_frame {type : UInt8} {value : List UInt8} (proper : type ≠ 0)
    (small : value.length < 256) (rest : List UInt8) :
    tlvs (type :: UInt8.ofNat value.length :: value ++ rest) =
      (tlvs rest).map fun later => (type, value) :: later := by
  have framed : frames (type :: UInt8.ofNat value.length :: value ++ rest) =
      Framed.precede [.tlv type value] (frames rest) :=
    frames_bytes_append (show (Frame.tlv type value).Writable from ⟨proper, small⟩) rest
  unfold tlvs
  rw [framed]
  simp only [Framed.truncated_precede, Framed.frames_precede]
  cases (frames rest).truncated <;> rfl

theorem packetCounter_append {found : List (UInt8 × List UInt8)}
    (plain : ∀ tlv ∈ found, tlv.1 ≠ PC) (rest : List (UInt8 × List UInt8)) :
    packetCounter (found ++ rest) = packetCounter rest := by
  have none : packetCounter found = none := by
    refine List.findSome?_eq_none_iff.mpr fun tlv member => ?_
    rw [if_neg fun right => plain tlv member right.1]
  simp only [packetCounter] at none ⊢
  rw [List.findSome?_append, none, Option.none_or]

/-! ## Signing -/

theorem signable_eq_ok {packet : List UInt8} (allowed : signable packet = .ok ()) :
    ∃ high low content found, packet = 42 :: 2 :: high :: low :: content ∧
      ofBe [high, low] = content.length ∧ tlvs content = .ok found ∧
      ∀ tlv ∈ found, tlv.1 ≠ PC ∧ tlv.1 ≠ MAC := by
  unfold signable at allowed
  cases framed : bodyEnd packet with
  | error error => simp [framed, bind, Except.bind] at allowed
  | ok stop =>
    simp only [framed, bind, Except.bind] at allowed
    split at allowed
    · cases allowed
    · rename_i whole
      obtain ⟨high, low, content, rfl, rfl, fits⟩ := bodyEnd_eq_ok.mp framed
      have length : ofBe [high, low] = content.length := by
        have := not_not.mp whole
        simp only [List.length_cons] at this
        omega
      have body : ((42 :: 2 :: high :: low :: content).take (4 + ofBe [high, low])).drop 4 =
          content := by
        rw [length, List.take_of_length_le (by simp; omega)]
        rfl
      rw [body] at allowed
      cases parsed : tlvs content with
      | error error => simp [parsed] at allowed
      | ok found =>
        refine ⟨high, low, content, found, rfl, length, parsed, fun tlv member => ?_⟩
        simp only [parsed, pure, Except.pure] at allowed
        split at allowed
        · cases allowed
        · rename_i absent
          simp only [List.any_eq_true, Bool.or_eq_true, decide_eq_true_eq, not_exists,
            not_and, not_or] at absent
          exact absent tlv member

def pcTlv (session : MacSession) : UInt8 × List UInt8 :=
  (PC, toBe 4 session.counter.toNat ++ session.index.val)

theorem length_pcTlv (session : MacSession) : (pcTlv session).2.length = 20 := by
  simp [pcTlv, session.index.property]

theorem packetCounter_pcTlv (session : MacSession) :
    packetCounter [pcTlv session] = some (session.counter, session.index.val) := by
  have counter : ofBe (toBe 4 session.counter.toNat) = session.counter.toNat :=
    ofBe_toBe_of_lt session.counter.toNat_lt
  have wide : (pcTlv session).1 = PC ∧ 4 ≤ (pcTlv session).2.length ∧
      (pcTlv session).2.length ≤ 36 := by
    rw [length_pcTlv]
    exact ⟨rfl, by omega, by omega⟩
  have read : packetCounter [pcTlv session] =
      some (UInt32.ofNat (ofBe ((pcTlv session).2.take 4)), (pcTlv session).2.drop 4) := by
    rw [packetCounter, List.findSome?_cons, if_pos wide]
  have front : (pcTlv session).2.take 4 = toBe 4 session.counter.toNat :=
    List.take_left' (length_toBe 4 _)
  have back : (pcTlv session).2.drop 4 = session.index.val := List.drop_left' (length_toBe 4 _)
  rw [read, front, back, counter, UInt32.ofNat_toNat]

/-- What a successful `sign` made, from the session that numbered the packet. -/
structure SignedBy (digest : MacKey → List UInt8 → List UInt8) (numberer : MacSession)
    (packet : List UInt8) (endpoints : DatagramEndpoints) (datagram : List UInt8) : Prop where
  parts : ∃ high low content found data,
    packet = 42 :: 2 :: high :: low :: content ∧ ofBe [high, low] = content.length ∧
    tlvs content = .ok found ∧ (∀ tlv ∈ found, tlv.1 ≠ PC ∧ tlv.1 ≠ MAC) ∧
    content.length + 22 ≤ 0xffff ∧
    endpoints.authenticatedBytes ([42, 2] ++ toBe 2 (content.length + 22) ++
      (content ++ PC :: 20 :: (pcTlv numberer).2)) = .ok data ∧
    datagram = [42, 2] ++ toBe 2 (content.length + 22) ++
      (content ++ PC :: 20 :: (pcTlv numberer).2) ++ numberer.trailer digest data

variable {digest : MacKey → List UInt8 → List UInt8} {session next numberer : MacSession}
  {packet datagram : List UInt8} {endpoints : DatagramEndpoints} {draw : Draw}

theorem sign_eq_ok (signs : session.sign digest packet endpoints draw = (next, .ok datagram)) :
    ∃ numberer, session.renewed draw = .ok numberer ∧
      next = { numberer with counter := numberer.counter + 1 } ∧
      SignedBy digest numberer packet endpoints datagram := by
  unfold sign at signs
  cases allowed : signable packet with
  | error error => simp [allowed] at signs
  | ok value =>
    cases renews : session.renewed draw with
    | error error => simp [allowed, renews] at signs
    | ok numberer =>
      simp only [allowed, renews, Prod.mk.injEq] at signs
      obtain ⟨rfl, sealed⟩ := signs
      refine ⟨numberer, rfl, rfl, ?_⟩
      obtain ⟨high, low, content, found, rfl, length, parsed, plain⟩ := signable_eq_ok allowed
      unfold authenticate numbered at sealed
      have appended : (42 :: 2 :: high :: low :: content) ++ [PC, 20] ++
          toBe 4 numberer.counter.toNat ++ numberer.index.val =
          42 :: 2 :: high :: low :: (content ++ PC :: 20 :: (pcTlv numberer).2) := by
        simp [pcTlv]
      have size : (42 :: 2 :: high :: low ::
          (content ++ PC :: 20 :: (pcTlv numberer).2)).length - 4 = content.length + 22 := by
        simp [length_pcTlv]
      simp only [appended, size, bind, Except.bind] at sealed
      split at sealed
      · cases sealed
      · rename_i out numbers
        split at numbers
        · cases numbers
        · rename_i small
          obtain rfl := Except.ok.inj numbers
          split at sealed
          · cases sealed
          · rename_i data covered
            exact ⟨high, low, content, found, data, rfl, length, parsed, plain, not_lt.mp small,
              covered, (Except.ok.inj sealed).symm⟩

namespace SignedBy

theorem bodyBytes_eq (signed : SignedBy digest numberer packet endpoints datagram) :
    ∃ content data, datagram = bodyBytes datagram ++ numberer.trailer digest data ∧
    endpoints.authenticatedBytes (bodyBytes datagram) = .ok data ∧
    bodyEnd datagram = .ok (bodyBytes datagram).length ∧ (bodyBytes datagram).drop 4 = content ∧
    ∃ high low plain found, packet = 42 :: 2 :: high :: low :: plain ∧ tlvs plain = .ok found ∧
      (∀ tlv ∈ found, tlv.1 ≠ PC ∧ tlv.1 ≠ MAC) ∧ content = plain ++ PC :: 20 :: (pcTlv numberer).2
    := by
  obtain ⟨high, low, content, found, data, packetEq, -, parsed, plain, small, covered, rfl⟩ :=
    signed.parts
  have size : (content ++ PC :: 20 :: (pcTlv numberer).2).length = content.length + 22 := by
    simp [length_pcTlv]
  have framed := bodyEnd_framed (content ++ PC :: 20 :: (pcTlv numberer).2)
    (numberer.trailer digest data) (size ▸ small)
  rw [size] at framed
  have width : ([42, 2] ++ toBe 2 (content.length + 22) ++
      (content ++ PC :: 20 :: (pcTlv numberer).2)).length = 4 + (content.length + 22) := by
    simp [length_pcTlv]
    omega
  have body : bodyBytes ([42, 2] ++ toBe 2 (content.length + 22) ++
      (content ++ PC :: 20 :: (pcTlv numberer).2) ++ numberer.trailer digest data) =
      [42, 2] ++ toBe 2 (content.length + 22) ++
        (content ++ PC :: 20 :: (pcTlv numberer).2) := by
    simp only [bodyBytes, framed]
    rw [← width, List.take_left]
  refine ⟨content ++ PC :: 20 :: (pcTlv numberer).2, data, ?_, ?_, ?_, ?_, high, low, content,
    found, packetEq, parsed, plain, rfl⟩
  · rw [body]
  · rw [body]; exact covered
  · rw [body, width]; exact framed
  · rw [body, List.append_assoc]
    obtain ⟨first, second, octets⟩ : ∃ first second, toBe 2 (content.length + 22) =
        [first, second] := List.length_eq_two.mp (length_toBe 2 _)
    simp [octets]

/-- The body of a signed datagram: the packet's TLVs and the PC. -/
theorem bodyOf_eq (signed : SignedBy digest numberer packet endpoints datagram) :
    ∃ found, tlvs (packet.drop 4) = .ok found ∧
    (∀ tlv ∈ found, tlv.1 ≠ PC ∧ tlv.1 ≠ MAC) ∧
    tlvs ((bodyBytes datagram).drop 4) = .ok (found ++ [pcTlv numberer]) ∧
    bodyOf datagram = found ++ [pcTlv numberer] := by
  obtain ⟨content, data, whole, -, framed, dropped, high, low, plain, found, rfl, parsed, proper,
    rfl⟩ := signed.bodyBytes_eq
  have pc : tlvs (PC :: 20 :: (pcTlv numberer).2) = .ok [pcTlv numberer] := by
    have framed := tlvs_frame (show PC ≠ 0 by decide)
      (show (pcTlv numberer).2.length < 256 by rw [length_pcTlv]; omega) []
    rw [length_pcTlv, List.append_nil] at framed
    exact framed
  have read : tlvs ((bodyBytes datagram).drop 4) = .ok (found ++ [pcTlv numberer]) := by
    rw [dropped, tlvs_append parsed, pc]
    rfl
  refine ⟨found, parsed, proper, read, ?_⟩
  have taken : datagram.take (bodyBytes datagram).length = bodyBytes datagram :=
    (congrArg (List.take (bodyBytes datagram).length) whole).trans List.take_left
  simp only [bodyOf, framed, taken, read]

theorem packetCounter_eq (signed : SignedBy digest numberer packet endpoints datagram) :
    packetCounter (bodyOf datagram) = some (numberer.counter, numberer.index.val) := by
  obtain ⟨found, -, proper, -, read⟩ := signed.bodyOf_eq
  rw [read, packetCounter_append fun tlv member => (proper tlv member).1, packetCounter_pcTlv]

end SignedBy

end BabelRs
