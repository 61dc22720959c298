import BabelRs.Wire.Decode

/-!
# What the decoder computes

The checked operations of the decoder never leave their bounds, so each of its helpers
has a plain value: the framing loops are folds over frames, and a prefix is assembled
from the octets reused and the octets carried.
-/

set_option autoImplicit false

namespace BabelRs.Wire

open Lib Lib.Checked Lib.Metered

/-! ## Prefixes -/

variable (ae : AddressEncoding) (plen : Nat)

@[simp] theorem raw_prefixEncodedLen :
    Raw.prefixEncodedLen ae plen = .ok (prefixEncodedLen ae plen) := by
  have long : 64 ≤ plen → 8 ≤ (plen + 7) / 8 := by omega
  unfold Raw.prefixEncodedLen prefixEncodedLen
  cases ae <;>
    simp only [AddressEncoding.maxPrefixBits, Option.bind_eq_bind, Option.bind_some] <;>
    split <;> try rfl
  split
  · rw [sub_ok (long ‹_›)]
    rfl
  · rfl

/-- No encoded prefix is longer than the octets its encoding spells out. -/
theorem prefixEncodedLen_le {ae : AddressEncoding} {plen size : Nat}
    (encoded : prefixEncodedLen ae plen = some size) :
    ∃ width, ae.addressLen = some width ∧ size ≤ width := by
  unfold prefixEncodedLen at encoded
  cases ae <;>
    simp only [AddressEncoding.maxPrefixBits, AddressEncoding.addressLen,
      Option.bind_eq_bind, Option.bind_some] at encoded ⊢
  all_goals
    refine ⟨_, rfl, ?_⟩
    grind

/-- Nor longer than its bits need. -/
theorem getD_prefixEncodedLen_le :
    (prefixEncodedLen ae plen).getD 0 ≤ (plen + 7) / 8 := by
  unfold prefixEncodedLen
  cases ae <;>
    simp only [AddressEncoding.maxPrefixBits, Option.bind_eq_bind, Option.bind_some] <;> grind

@[simp] theorem raw_prefixWireBytes (net : IpNet) (ae : AddressEncoding) :
    Raw.prefixWireBytes net ae = .ok (prefixWireBytes net ae) := by
  have short := getD_prefixEncodedLen_le ae net.prefixLen
  have front : ∀ bytes : List UInt8, (net.prefixLen + 7) / 8 ≤ bytes.length →
      (slice bytes 0 ((prefixEncodedLen ae net.prefixLen).getD 0) : Checked WireError _) =
        .ok (bytes.take ((prefixEncodedLen ae net.prefixLen).getD 0)) := by
    intro bytes fits
    rw [slice_ok ⟨Nat.zero_le _, by omega⟩, List.drop_zero]
  simp only [Raw.prefixWireBytes, raw_prefixEncodedLen, ok_bind, prefixWireBytes]
  cases net with
  | v4 address len =>
    exact front _ (by simp [IpNet.addr, IpAddr.octets, IpNet.prefixLen]; omega)
  | v6 address len =>
    have whole := front (IpNet.v6 address len).addr.octets
      (by simp [IpNet.addr, IpAddr.octets, IpNet.prefixLen]; omega)
    cases ae with
    | ipv6LinkLocal =>
      have half : (prefixEncodedLen .ipv6LinkLocal len.val).getD 0 ≤ 8 := by
        cases encoded : prefixEncodedLen .ipv6LinkLocal len.val with
        | none => simp
        | some size =>
          obtain ⟨width, wide, fits⟩ := prefixEncodedLen_le encoded
          obtain rfl := Option.some.inj wide
          exact fits
      simp only [IpNet.prefixLen]
      rw [slice_ok ⟨Nat.le_add_right _ _, by simp [IpNet.addr, IpAddr.octets]; omega⟩]
      simp [List.drop_take]
    | wildcard => exact whole
    | ipv4 => exact whole
    | ipv6 => exact whole
    | ipv4ViaIpv6 => exact whole

@[simp] theorem raw_maskLast (encoded : List UInt8) :
    Raw.maskLast plen encoded = .ok (maskLast plen encoded) := by
  unfold Raw.maskLast maskLast
  cases encoded.getLast? with
  | none => simp
  | some last =>
    by_cases part : plen % 8 = 0
    · simp [part]
    · have low : 8 - plen % 8 < 8 := by omega
      have high : plen % 8 ≤ 8 := by omega
      simp [part, sub_ok high, shiftLeft, low, pure, Except.pure]

theorem length_maskLast (encoded : List UInt8) :
    (maskLast plen encoded).length = encoded.length := by
  unfold maskLast
  split
  · split
    · rename_i last found
      have nonempty : encoded ≠ [] := by
        rintro rfl
        cases found
      have positive := List.length_pos_of_ne_nil nonempty
      simp
      omega
    · rfl
  · rfl

@[simp] theorem raw_routerIdFromPrefix (net : IpNet) :
    Raw.routerIdFromPrefix net = .ok (routerIdFromPrefix net) := by
  have few : min net.addr.octets.length 8 ≤ 8 := Nat.min_le_right _ _
  have enough : min net.addr.octets.length 8 ≤ net.addr.octets.length := Nat.min_le_left _ _
  simp only [Raw.routerIdFromPrefix, routerIdFromPrefix]
  simp only [sub_ok few, sub_ok enough, sliceFrom, slice_ok ⟨Nat.sub_le _ _, le_refl _⟩, ok_bind,
    List.take_length]
  rw [copyFromSlice, if_pos (by simp; omega), List.take_replicate, List.drop_replicate,
    Nat.min_eq_left (Nat.sub_le _ _), Nat.sub_self, List.replicate_zero, List.append_nil]

/-! ## Assembling a prefix -/

/-- The address with the given octets in front, and zeroes behind. -/
def netOf (ae : AddressEncoding) (plen : Nat) (encoded : List UInt8) : Option IpNet :=
  let padded (size : Nat) := encoded ++ List.replicate (size - encoded.length) 0
  match ae with
  | .ipv4 | .ipv4ViaIpv6 => IpNet.newV4 (ipv4OfOctets (padded 4)) plen
  | .ipv6 => IpNet.newV6 (ipv6OfOctets (padded 16)) plen
  | .ipv6LinkLocal => IpNet.newV6 (ipv6OfOctets (linkLocalPrefix ++ padded 8)) plen
  | .wildcard => none

/-- The prefix an encoding stands for, given the octets carried and those of the prefix before. -/
def prefixOf (ae : AddressEncoding) (plen omitted : Nat) (suffix : List UInt8)
    (previous : Option (List UInt8)) : Option IpNet := do
  let encodedLen ← prefixEncodedLen ae plen
  if encodedLen < omitted ∨ suffix.length < encodedLen - omitted then none
  else do
    let reused ← reusedOctets omitted previous
    netOf ae plen (maskLast plen (reused ++ suffix.take (encodedLen - omitted)))

theorem length_reusedOctets {omitted : Nat} {previous : Option (List UInt8)} {reused : List UInt8}
    (found : reusedOctets omitted previous = some reused) : reused.length = omitted := by
  unfold reusedOctets at found
  split at found
  · simp_all
  · obtain ⟨bytes, -, taken⟩ := Option.bind_eq_some_iff.mp found
    split at taken
    · obtain rfl := Option.some.inj taken
      simpa using ‹_›
    · cases taken

/-- Reused octets fill the front of the buffer. -/
theorem raw_reuseOctets {encodedLen omitted : Nat} (fits : omitted ≤ encodedLen)
    (previous : Option (List UInt8)) :
    Raw.reuseOctets (List.replicate encodedLen 0) omitted previous =
      .ok ((reusedOctets omitted previous).map fun reused =>
        reused ++ List.replicate (encodedLen - omitted) 0) := by
  unfold Raw.reuseOctets reusedOctets
  by_cases none : omitted = 0
  · subst none
    simp
  · rw [if_pos (Nat.pos_of_ne_zero none), if_neg none]
    cases reuses : previous.bind fun bytes =>
        if omitted ≤ bytes.length then some (bytes.take omitted) else Option.none with
    | none => rfl
    | some reused =>
      have size : reused.length = omitted := by
        have found : reusedOctets omitted previous = some reused := by
          rw [reusedOctets, if_neg none]
          exact reuses
        exact length_reusedOctets found
      simp only
      rw [copyFromSlice, if_pos ⟨Nat.zero_le _, by simpa using fits, by simpa using size⟩]
      simp [pure, Except.pure]

theorem decodePrefix_eq (omitted : Nat) (suffix : List UInt8) (previous : Option (List UInt8)) :
    decodePrefix ae plen omitted suffix previous =
      .ok (prefixOf ae plen omitted suffix previous) := by
  unfold decodePrefix prefixOf
  rw [raw_prefixEncodedLen, ok_bind]
  cases encoded : prefixEncodedLen ae plen with
  | none => rfl
  | some encodedLen =>
    simp only [Option.bind_eq_bind, Option.bind_some]
    by_cases excess : encodedLen < omitted
    · simp [excess, pure, Except.pure]
    · rw [if_neg excess, sub_ok (not_lt.mp excess), ok_bind]
      by_cases short : suffix.length < encodedLen - omitted
      · simp [short, pure, Except.pure]
      · rw [if_neg short, if_neg (by simp [excess, short]), raw_reuseOctets (not_lt.mp excess), ok_bind]
        cases reuses : reusedOctets omitted previous with
        | none => rfl
        | some reused =>
          have size := length_reusedOctets reuses
          have cut : (slice suffix 0 (encodedLen - omitted) : Checked WireError _) =
              .ok (suffix.take (encodedLen - omitted)) := by
            rw [slice_ok ⟨Nat.zero_le _, not_lt.mp short⟩, List.drop_zero]
          have copied : (copyFromSlice (reused ++ List.replicate (encodedLen - omitted) 0) omitted
              encodedLen (suffix.take (encodedLen - omitted)) : Checked WireError _) =
              .ok (reused ++ suffix.take (encodedLen - omitted)) := by
            rw [copyFromSlice, if_pos (by simp; omega)]
            simp [← size]
            omega
          obtain ⟨width, wide, fits⟩ := prefixEncodedLen_le encoded
          have length : (maskLast plen (reused ++ suffix.take (encodedLen - omitted))).length ≤
              width := by
            rw [length_maskLast]
            simp
            omega
          simp only [Option.map_some, cut, ok_bind, copied, raw_maskLast, Option.bind_some]
          cases ae <;> cases wide <;>
            first
            | rfl
            | (rw [fill_ok length]; rfl)

/-! ## Context of an Update -/

/-- The octets of a prefix with the zeroes that complete them. -/
def defaultPrefix (ae : AddressEncoding) (net : IpNet) : List UInt8 :=
  let size := ae.addressLen.getD 0
  (prefixWireBytes net ae).take size ++
    List.replicate (size - (prefixWireBytes net ae).length) 0

def absorbed (fields : UpdateFields) (net : IpNet) (state : ParserState) : ParserState where
  routerId :=
    if fields.flags &&& 0x40 ≠ 0 then RouterId.ofOctets (routerIdFromPrefix net) else state.routerId
  prefixes :=
    if fields.flags &&& 0x80 ≠ 0 then state.prefixes.insert fields.ae (defaultPrefix fields.ae net)
    else state.prefixes
  nextHopV4 := state.nextHopV4
  nextHopV6 := state.nextHopV6

theorem absorbPrefix_eq (fields : UpdateFields) (net : IpNet) (state : ParserState) :
    absorbPrefix fields net state = .ok (absorbed fields net state) := by
  have sized : orFail (WireError.invalidTlv TLV_UPDATE) fields.ae.addressLen =
      .ok (fields.ae.addressLen.getD 0) := by
    cases fields.ae <;> rfl
  unfold absorbPrefix rememberPrefix rememberRouterId absorbed defaultPrefix
  rw [raw_prefixWireBytes, raw_routerIdFromPrefix, sized]
  by_cases default : fields.flags &&& 0x80 = 0 <;>
    by_cases identity : fields.flags &&& 0x40 = 0 <;> simp [default, identity, pure, Except.pure]

/-! ## Framing -/

theorem decodeSubTlvs_eq (data : List UInt8) (context : SubContext) (destination : Option IpNet) :
    decodeSubTlvs data context destination =
      foldFrames .invalidTlv (decodeSubTlv context destination) (frames data) .start :=
  walk_eq _ _ [] data data.length (le_refl _) _

theorem decodeFrame_tlv (parsed : List Tlv × ParserState) (type : UInt8) (value : List UInt8) :
    decodeFrame parsed (.tlv type value) = decodeTlv type value parsed.2 >>= fun decoded =>
      .ok (parsed.1 ++ decoded.1.toList, decoded.2) :=
  result_bind _ _

theorem decodeBody_eq (body : List UInt8) (source : IpAddr) :
    decodeBody body source =
      (foldFrames .truncatedTlv decodeFrame (frames body) ([], .new source)).map fun parsed =>
        ⟨parsed.1⟩ := by
  have walked : (walk WireError.truncatedTlv Loops.decodeFrame body body.length 0
      ([], .new source)).result =
        foldFrames .truncatedTlv decodeFrame (frames body) ([], .new source) :=
    walk_eq _ _ [] body body.length (le_refl _) _
  rw [decodeBody, Loops.decodeBody, result_bind, walked]
  cases foldFrames .truncatedTlv decodeFrame (frames body) ([], .new source) <;> rfl

theorem decodePacket_cons (magic version high low : UInt8) (rest : List UInt8)
    (context : DecodeContext) :
    decodePacket (magic :: version :: high :: low :: rest) context =
      if magic ≠ MAGIC then fail .badMagic
      else if version ≠ VERSION then fail (.unsupportedVersion version)
      else if rest.length < ofBe [high, low] then fail .truncatedBody
      else decodeBody (rest.take (ofBe [high, low])) context.source := by
  have long : ¬ (magic :: version :: high :: low :: rest).length < 4 := by simp
  have size : (magic :: version :: high :: low :: rest).length < 4 + ofBe [high, low] ↔
      rest.length < ofBe [high, low] := by
    simp only [List.length_cons]
    omega
  have first : index (magic :: version :: high :: low :: rest) 0 =
      (.ok magic : Checked WireError UInt8) := rfl
  have second : index (magic :: version :: high :: low :: rest) 1 =
      (.ok version : Checked WireError UInt8) := rfl
  have third : index (magic :: version :: high :: low :: rest) 2 =
      (.ok high : Checked WireError UInt8) := rfl
  have fourth : index (magic :: version :: high :: low :: rest) 3 =
      (.ok low : Checked WireError UInt8) := rfl
  simp only [decodePacket, Loops.decodePacket, result_ite, result_bind, result_check, if_neg long,
    first, second, third, fourth, ok_bind, size]
  by_cases cut : rest.length < ofBe [high, low]
  · simp only [if_pos cut]
  · have inside : (slice (magic :: version :: high :: low :: rest) 4 (4 + ofBe [high, low]) :
        Checked WireError _) = .ok (rest.take (ofBe [high, low])) := by
      rw [slice_ok ⟨Nat.le_add_right _ _, not_lt.mp (size.not.mpr cut)⟩, Nat.add_comm 4]
      rfl
    simp only [if_neg cut, inside, ok_bind, decodeBody]

theorem decodePacket_framed {high low : UInt8} {rest body : List UInt8}
    (fits : ofBe [high, low] ≤ rest.length) (taken : rest.take (ofBe [high, low]) = body)
    (context : DecodeContext) :
    decodePacket (42 :: 2 :: high :: low :: rest) context = decodeBody body context.source := by
  rw [decodePacket_cons, if_neg (show ¬ 42 ≠ MAGIC by decide),
    if_neg (show ¬ 2 ≠ VERSION by decide), if_neg (not_lt.mpr fits), taken]

/-- What is accepted has the header, and a body of the length it gives. -/
theorem decodePacket_eq_ok {data : List UInt8} {context : DecodeContext} {packet : Packet} :
    decodePacket data context = .ok packet ↔ ∃ high low body trailer,
      data = 42 :: 2 :: high :: low :: (body ++ trailer) ∧ ofBe [high, low] = body.length ∧
      decodeBody body context.source = .ok packet := by
  constructor
  · intro accepted
    match data, accepted with
    | [], accepted => cases accepted
    | [_], accepted => cases accepted
    | [_, _], accepted => cases accepted
    | [_, _, _], accepted => cases accepted
    | magic :: version :: high :: low :: rest, accepted =>
      rw [decodePacket_cons] at accepted
      split at accepted
      · cases accepted
      split at accepted
      · cases accepted
      split at accepted
      · cases accepted
      rename_i sameMagic sameVersion fits
      refine ⟨high, low, rest.take (ofBe [high, low]), rest.drop (ofBe [high, low]), ?_, ?_,
        accepted⟩
      · rw [List.take_append_drop, not_not.mp sameMagic, not_not.mp sameVersion]
        rfl
      · rw [List.length_take, Nat.min_eq_left (not_lt.mp fits)]
  · rintro ⟨high, low, body, trailer, rfl, length, decoded⟩
    rw [decodePacket_framed _ (List.take_left' length.symm), decoded]
    rw [length, List.length_append]
    exact Nat.le_add_right _ _

end BabelRs.Wire
