import BabelRs.Wire.Parsing

/-!
# TLVs in two parts

Decoding a TLV reads its own fields, which settle the context it leaves and where its
sub-TLVs begin, and then its sub-TLVs, which discard it or complete it.  A plan is what
the first part comes to; the decoder runs the plan of every TLV.
-/

set_option autoImplicit false

namespace BabelRs.Wire

open Lib Lib.Checked Lib.Metered

/-- A TLV whose fields are read and whose sub-TLVs are not. -/
structure Reading where
  rest : List UInt8
  context : SubContext
  destination : Option IpNet
  after : ParserState
  finish : DecodedSubTlvs → Checked WireError (Option Tlv)

inductive Plan where
  /-- Ignored, whatever its sub-TLVs. -/
  | skip
  /-- A TLV without sub-TLVs. -/
  | whole (tlv : Tlv)
  | read (reading : Reading)

def Reading.run (reading : Reading) : Checked WireError (Option Tlv × ParserState) := do
  let sub ← decodeSubTlvs reading.rest reading.context reading.destination
  if sub.mandatoryUnknown then return (none, reading.after)
  else return (← reading.finish sub, reading.after)

def Plan.run (state : ParserState) : Plan → Checked WireError (Option Tlv × ParserState)
  | skip => .ok (none, state)
  | whole tlv => .ok (some tlv, state)
  | read reading => reading.run

/-! ## Fields -/

def u16 (high low : UInt8) : UInt16 := UInt16.ofNat (ofBe [high, low])

def addressOf (ae : AddressEncoding) (octets : List UInt8) : Option IpAddr :=
  match ae with
  | .ipv4 => some (.v4 (ipv4OfOctets octets))
  | .ipv6 => some (.v6 (ipv6OfOctets octets))
  | .ipv6LinkLocal => some (.v6 (ipv6OfOctets (linkLocalPrefix ++ octets)))
  | _ => none

/-- A TLV that only its sub-TLVs can discard. -/
def Plan.plain (rest : List UInt8) (context : SubContext) (after : ParserState)
    (finish : List SubTlv → Tlv) : Plan :=
  .read ⟨rest, context, none, after, fun sub => .ok (some (finish sub.values))⟩

def planAckRequest (value : List UInt8) (state : ParserState) : Checked WireError Plan :=
  match value with
  | _ :: _ :: n0 :: n1 :: i0 :: i1 :: rest =>
    if u16 i0 i1 = 0 then fail (.invalidTlv TLV_ACK_REQ)
    else .ok (.plain rest .hello state fun _ => .ackRequest (u16 n0 n1) (u16 i0 i1))
  | _ => fail (.invalidTlv TLV_ACK_REQ)

def planAck (value : List UInt8) (state : ParserState) : Checked WireError Plan :=
  match value with
  | n0 :: n1 :: rest => .ok (.plain rest .hello state fun _ => .ack (u16 n0 n1))
  | _ => fail (.invalidTlv TLV_ACK)

def planHello (value : List UInt8) (state : ParserState) : Checked WireError Plan :=
  match value with
  | f0 :: f1 :: s0 :: s1 :: i0 :: i1 :: rest =>
    .ok (.plain rest .hello state fun subTlvs =>
      .hello (u16 f0 f1 &&& 0x8000 ≠ 0) (u16 s0 s1) (u16 i0 i1) subTlvs)
  | _ => fail (.invalidTlv TLV_HELLO)

def planIhu (value : List UInt8) (state : ParserState) : Checked WireError Plan :=
  match value with
  | encoding :: _ :: r0 :: r1 :: i0 :: i1 :: rest =>
    match AddressEncoding.fromU8 encoding with
    | none => .ok .skip
    | some .ipv4ViaIpv6 => .ok .skip
    | some ae =>
      let size := ae.addressLen.getD 0
      if rest.length < size ∨ u16 i0 i1 = 0 then fail (.invalidTlv TLV_IHU)
      else .ok (.plain (rest.drop size) .ihu state fun subTlvs =>
        .ihu (addressOf ae (rest.take size)) (u16 r0 r1) (u16 i0 i1) subTlvs)
  | _ => fail (.invalidTlv TLV_IHU)

def planRouterId (value : List UInt8) (state : ParserState) : Checked WireError Plan :=
  match value with
  | _ :: _ :: fields =>
    if fields.length < 8 then fail (.invalidTlv TLV_ROUTER_ID)
    else match RouterId.ofOctets (fields.take 8) with
      | none => fail (.invalidTlv TLV_ROUTER_ID)
      | some id =>
        .ok (.plain (fields.drop 8) .hello { state with routerId := some id } fun _ =>
          .routerId id)
  | _ => fail (.invalidTlv TLV_ROUTER_ID)

def planNextHop (value : List UInt8) (state : ParserState) : Checked WireError Plan :=
  match value with
  | encoding :: _ :: rest =>
    match AddressEncoding.fromU8 encoding with
    | none => .ok .skip
    | some .wildcard => .ok .skip
    | some .ipv4ViaIpv6 => .ok .skip
    | some ae =>
      let size := ae.addressLen.getD 0
      if rest.length < size then fail (.invalidTlv TLV_NEXT_HOP)
      else match addressOf ae (rest.take size) with
        | none => fail (.invalidTlv TLV_NEXT_HOP)
        | some address =>
          .ok (.plain (rest.drop size) .hello (state.setNextHop address) fun _ =>
            .nextHop address)
  | _ => fail (.invalidTlv TLV_NEXT_HOP)

/-! ## Updates -/

def planWildcardUpdate (fields : UpdateFields) (rest : List UInt8) (state : ParserState) : Plan :=
  if fields.metric ≠ INFINITY ∨ fields.plen ≠ 0 ∨ fields.omitted ≠ 0 then .skip
  else .read ⟨rest, .prefixed .wildcard, none, state, fun sub => .ok
    (unlessMandatory sub.sourcePrefix.isSome
      (.update ⟨none, none, none, fields.intervalCs, fields.seqno, fields.metric, false,
        sub.values⟩))⟩

/-- An Update for a prefix that decoded. -/
def Reading.ofUpdate (fields : UpdateFields) (net : IpNet) (rest : List UInt8)
    (state : ParserState) : Reading where
  rest := rest
  context := .prefixed fields.ae
  destination := some net
  after := absorbed fields net state
  finish sub := do
    let key ← orFail (.invalidTlv TLV_UPDATE) (RouteKey.new net sub.sourcePrefix)
    return resolveUpdate fields key net (absorbed fields net state) sub.values

def planPrefixUpdate (fields : UpdateFields) (rest : List UInt8) (state : ParserState) :
    Checked WireError Plan :=
  match prefixEncodedLen fields.ae fields.plen with
  | none => fail (.invalidTlv TLV_UPDATE)
  | some encodedLen =>
    let size := encodedLen - fields.omitted
    if encodedLen < fields.omitted ∨ rest.length < size then fail (.invalidTlv TLV_UPDATE)
    else match prefixOf fields.ae fields.plen fields.omitted (rest.take size)
        (state.prefixes.get? fields.ae) with
      | none => .ok .skip
      | some net => .ok (.read (.ofUpdate fields net (rest.drop size) state))

def planUpdateFields (fields : UpdateFields) (rest : List UInt8) (state : ParserState) :
    Checked WireError Plan :=
  if fields.intervalCs = 0 then fail (.invalidTlv TLV_UPDATE)
  else if fields.ae = .wildcard then .ok (planWildcardUpdate fields rest state)
  else if fields.ae = .ipv6LinkLocal ∧ fields.omitted ≠ 0 then .ok .skip
  else planPrefixUpdate fields rest state

def planUpdate (value : List UInt8) (state : ParserState) : Checked WireError Plan :=
  match value with
  | encoding :: flags :: plen :: omitted :: i0 :: i1 :: s0 :: s1 :: m0 :: m1 :: rest =>
    match AddressEncoding.fromU8 encoding with
    | none => .ok .skip
    | some ae => planUpdateFields
        ⟨ae, flags, plen.toNat, omitted.toNat, u16 i0 i1, u16 s0 s1, u16 m0 m1⟩ rest state
  | _ => fail (.invalidTlv TLV_UPDATE)

/-! ## Requests -/

/-- A request for a prefix spelled out at the front of `rest`. -/
def planRequest (type : UInt8) (ae : AddressEncoding) (plen size : Nat) (rest : List UInt8)
    (state : ParserState) (finish : RouteKey → List SubTlv → Tlv) : Checked WireError Plan :=
  match prefixOf ae plen 0 (rest.take size) none with
  | none => fail (.invalidTlv type)
  | some net => .ok (.read ⟨rest.drop size, .prefixed ae, some net, state, fun sub => do
    let key ← orFail (.invalidTlv type) (RouteKey.new net sub.sourcePrefix)
    return some (finish key sub.values)⟩)

def planRouteRequest (value : List UInt8) (state : ParserState) : Checked WireError Plan :=
  match value with
  | encoding :: plen :: rest =>
    match AddressEncoding.fromU8 encoding with
    | none => .ok .skip
    | some ae =>
      if ae = .wildcard then
        if plen ≠ 0 then .ok .skip
        else .ok (.read ⟨rest, .prefixed ae, none, state, fun sub => .ok
          (unlessMandatory sub.sourcePrefix.isSome (.routeRequest none sub.values))⟩)
      else match prefixEncodedLen ae plen.toNat with
        | none => fail (.invalidTlv TLV_ROUTE_REQUEST)
        | some size =>
          if rest.length < size then fail (.invalidTlv TLV_ROUTE_REQUEST)
          else planRequest TLV_ROUTE_REQUEST ae plen.toNat size rest state fun key subTlvs =>
            .routeRequest (some key) subTlvs
  | _ => fail (.invalidTlv TLV_ROUTE_REQUEST)

def planSeqnoRequest (value : List UInt8) (state : ParserState) : Checked WireError Plan :=
  match value with
  | encoding :: plen :: s0 :: s1 :: hopCount :: _ :: fields =>
    if fields.length < 8 then fail (.invalidTlv TLV_SEQNO_REQUEST)
    else match AddressEncoding.fromU8 encoding with
      | none => .ok .skip
      | some ae =>
        if ae = .wildcard then .ok .skip
        else match prefixEncodedLen ae plen.toNat with
          | none => fail (.invalidTlv TLV_SEQNO_REQUEST)
          | some size =>
            if fields.length < 8 + size ∨ hopCount = 0 then
              fail (.invalidTlv TLV_SEQNO_REQUEST)
            else match RouterId.ofOctets (fields.take 8) with
              | none => fail (.invalidTlv TLV_SEQNO_REQUEST)
              | some routerId =>
                planRequest TLV_SEQNO_REQUEST ae plen.toNat size (fields.drop 8) state
                  fun key subTlvs =>
                    .seqnoRequest key (u16 s0 s1) hopCount routerId subTlvs
  | _ => fail (.invalidTlv TLV_SEQNO_REQUEST)

/-! ## All TLVs -/

def planTlv (type : UInt8) (value : List UInt8) (state : ParserState) : Checked WireError Plan :=
  if type = TLV_PADN then .ok (.whole (.padN value))
  else if type = TLV_ACK_REQ then planAckRequest value state
  else if type = TLV_ACK then planAck value state
  else if type = TLV_HELLO then planHello value state
  else if type = TLV_IHU then planIhu value state
  else if type = TLV_ROUTER_ID then planRouterId value state
  else if type = TLV_NEXT_HOP then planNextHop value state
  else if type = TLV_UPDATE then planUpdate value state
  else if type = TLV_ROUTE_REQUEST then planRouteRequest value state
  else if type = TLV_SEQNO_REQUEST then planSeqnoRequest value state
  else .ok (.whole (.unknown type value))

/-! ## The decoder runs its plans -/

open Loops (keeping hasUnknownMandatory decodeAckRequest decodeAck decodeHello decodeIhu
  decodeRouterId decodeNextHop decodeWildcardUpdate decodePrefixUpdate decodeUpdate
  decodeRequestKey decodeRouteRequest decodeSeqnoRequest)

theorem be16_cons (high low : UInt8) (rest : List UInt8) :
    be16 (high :: low :: rest) = .ok (u16 high low) := rfl

variable {A : Type}

theorem slice_cons (first : A) (rest : List A) (start stop : Nat) :
    (slice (first :: rest) (start + 1) (stop + 1) : Checked WireError (List A)) =
      slice rest start stop := by
  simp [slice]

theorem slice_zero_two (first second : UInt8) (rest : List UInt8) :
    (slice (first :: second :: rest) 0 2 : Checked WireError (List UInt8)) =
      .ok [first, second] := by
  simp [slice]

theorem sliceFrom_cons (first : A) (rest : List A) (start : Nat) :
    (sliceFrom (first :: rest) (start + 1) : Checked WireError (List A)) =
      sliceFrom rest start := by
  simp [sliceFrom, slice]

theorem sliceFrom_zero (data : List A) :
    (sliceFrom data 0 : Checked WireError (List A)) = .ok data := by
  simp [sliceFrom, slice]

theorem index_cons_zero (first : A) (rest : List A) :
    (index (first :: rest) 0 : Checked WireError A) = .ok first := rfl

theorem index_cons_succ (first : A) (rest : List A) (i : Nat) :
    (index (first :: rest) (i + 1) : Checked WireError A) = index rest i := rfl

theorem run_plain (rest : List UInt8) (context : SubContext) (state after : ParserState)
    (finish : List SubTlv → Tlv) :
    (Plan.plain rest context after finish).run state =
      decodeSubTlvs rest context none >>= fun sub =>
        .ok (unlessMandatory sub.mandatoryUnknown (finish sub.values), after) := by
  simp only [Plan.plain, Plan.run, Reading.run]
  refine congrArg _ (funext fun sub => ?_)
  cases sub.mandatoryUnknown <;> rfl

variable (value : List UInt8) (state : ParserState)

theorem result_keeping (decoded : Metered WireError (Option Tlv)) :
    (keeping state decoded).result = decoded.result >>= fun tlv => .ok (tlv, state) :=
  result_bind _ _

theorem result_hasUnknownMandatory (data : List UInt8) :
    (hasUnknownMandatory data).result =
      decodeSubTlvs data .hello none >>= fun sub => .ok sub.mandatoryUnknown :=
  result_bind _ _

theorem decodeAck_eq :
    (keeping state (decodeAck value)).result = planAck value state >>= Plan.run state := by
  match value with
  | [] => rfl
  | [_] => rfl
  | n0 :: n1 :: rest =>
    have long : ¬ (n0 :: n1 :: rest).length < 2 := by simp
    simp only [result_keeping, decodeAck, planAck, if_neg long, result_bind, result_check,
      result_pure, sliceFrom_cons, sliceFrom_zero, be16_cons, ok_bind, result_hasUnknownMandatory,
      run_plain, bind_assoc]

theorem decodeAckRequest_eq :
    (keeping state (decodeAckRequest value)).result =
      planAckRequest value state >>= Plan.run state := by
  match value with
  | [] => rfl
  | [_] => rfl
  | [_, _] => rfl
  | [_, _, _] => rfl
  | [_, _, _, _] => rfl
  | [_, _, _, _, _] => rfl
  | r0 :: r1 :: n0 :: n1 :: i0 :: i1 :: rest =>
    have long : ¬ (r0 :: r1 :: n0 :: n1 :: i0 :: i1 :: rest).length < 6 := by simp
    simp only [result_keeping, decodeAckRequest, planAckRequest, if_neg long, result_bind,
      result_check, result_ite, result_pure, slice_cons, slice_zero_two, sliceFrom_cons,
      sliceFrom_zero, be16_cons, ok_bind]
    split
    · rfl
    · simp only [ok_bind, result_hasUnknownMandatory, run_plain, bind_assoc]

theorem decodeHello_eq :
    (keeping state (decodeHello value)).result = planHello value state >>= Plan.run state := by
  match value with
  | [] => rfl
  | [_] => rfl
  | [_, _] => rfl
  | [_, _, _] => rfl
  | [_, _, _, _] => rfl
  | [_, _, _, _, _] => rfl
  | f0 :: f1 :: s0 :: s1 :: i0 :: i1 :: rest =>
    have long : ¬ (f0 :: f1 :: s0 :: s1 :: i0 :: i1 :: rest).length < 6 := by simp
    simp only [result_keeping, decodeHello, planHello, if_neg long, result_bind, result_check,
      result_pure, slice_cons, slice_zero_two, sliceFrom_cons, sliceFrom_zero, be16_cons, ok_bind,
      run_plain, bind_assoc]
    rfl

theorem slice_front {data : List A} {size : Nat} (fits : size ≤ data.length) :
    (slice data 0 size : Checked WireError (List A)) = .ok (data.take size) := by
  rw [slice_ok ⟨Nat.zero_le _, fits⟩, List.drop_zero]

theorem sliceFrom_ok {data : List A} {start : Nat} (fits : start ≤ data.length) :
    (sliceFrom data start : Checked WireError (List A)) = .ok (data.drop start) := by
  rw [sliceFrom, slice_ok ⟨fits, le_refl _⟩, List.take_length]

variable {ae : AddressEncoding}

theorem decodeAddress_eq {octets : List UInt8} (sized : octets.length = ae.addressLen.getD 0) :
    decodeAddress ae octets = .ok (addressOf ae octets) := by
  cases ae <;> simp_all [decodeAddress, addressOf, AddressEncoding.addressLen]

theorem decodeIhuAddress_eq {octets : List UInt8} (real : ae ≠ .ipv4ViaIpv6)
    (sized : octets.length = ae.addressLen.getD 0) :
    decodeIhuAddress ae octets = .ok (addressOf ae octets) := by
  rw [decodeIhuAddress, decodeAddress_eq sized, ok_bind]
  cases ae <;> first | rfl | exact absurd rfl real

theorem orFail_addressLen (reason : WireError) (ae : AddressEncoding) :
    orFail reason ae.addressLen = .ok (ae.addressLen.getD 0) := by
  cases ae <;> rfl

variable {rest : List UInt8}

/-- The fields of an IHU behind its encoding. -/
theorem decodeIhu_tail {e r r0 r1 i0 i1 : UInt8} (real : ae ≠ .ipv4ViaIpv6)
    (encoding : AddressEncoding.fromU8 e = some ae) (state : ParserState) :
    (keeping state (decodeIhu (e :: r :: r0 :: r1 :: i0 :: i1 :: rest))).result =
      (if rest.length < ae.addressLen.getD 0 ∨ u16 i0 i1 = 0 then fail (.invalidTlv TLV_IHU)
        else .ok (.plain (rest.drop (ae.addressLen.getD 0)) .ihu state fun subTlvs =>
          .ihu (addressOf ae (rest.take (ae.addressLen.getD 0))) (u16 r0 r1) (u16 i0 i1) subTlvs)) >>=
        Plan.run state := by
  have size : ∀ n, (e :: r :: r0 :: r1 :: i0 :: i1 :: rest).length < n + 6 ↔ rest.length < n := by
    intro n
    simp only [List.length_cons]
    omega
  have tail : (decodeIhu (e :: r :: r0 :: r1 :: i0 :: i1 :: rest)).result = (do
      let addrLen ← orFail (.invalidTlv TLV_IHU) ae.addressLen
      if rest.length < addrLen ∨ u16 i0 i1 = 0 then fail (.invalidTlv TLV_IHU)
      else do
        let address ← decodeIhuAddress ae (← slice rest 0 addrLen)
        let subTlvs ← decodeSubTlvs (← sliceFrom rest addrLen) .ihu none
        return unlessMandatory subTlvs.mandatoryUnknown
          (.ihu address (u16 r0 r1) (u16 i0 i1) subTlvs.values)) := by
    simp only [decodeIhu, result_ite, result_bind, result_check, index_cons_zero, ok_bind, encoding,
      slice_cons, slice_zero_two, be16_cons, size, Nat.add_comm 6, sliceFrom_cons]
    cases ae <;> rfl
  rw [result_keeping, tail, orFail_addressLen, ok_bind]
  split
  · rfl
  · rename_i whole
    have fits : ae.addressLen.getD 0 ≤ rest.length := not_lt.mp fun short => whole (.inl short)
    have sized : (rest.take (ae.addressLen.getD 0)).length = ae.addressLen.getD 0 := by
      rw [List.length_take, Nat.min_eq_left fits]
    rw [slice_front fits, ok_bind, decodeIhuAddress_eq real sized, ok_bind, sliceFrom_ok fits,
      ok_bind, ok_bind, run_plain, bind_assoc]
    rfl

theorem decodeIhu_eq :
    (keeping state (decodeIhu value)).result = planIhu value state >>= Plan.run state := by
  match value with
  | [] => rfl
  | [_] => rfl
  | [_, _] => rfl
  | [_, _, _] => rfl
  | [_, _, _, _] => rfl
  | [_, _, _, _, _] => rfl
  | e :: r :: r0 :: r1 :: i0 :: i1 :: rest =>
    have long : ¬ (e :: r :: r0 :: r1 :: i0 :: i1 :: rest).length < 6 := by simp
    cases encoding : AddressEncoding.fromU8 e with
    | none =>
      simp only [result_keeping, decodeIhu, if_neg long, result_bind, result_check, index_cons_zero,
        ok_bind, encoding, planIhu]
      rfl
    | some ae =>
      cases ae with
      | ipv4ViaIpv6 =>
        simp only [result_keeping, decodeIhu, if_neg long, result_bind, result_check,
          index_cons_zero, ok_bind, encoding, planIhu]
        rfl
      | wildcard => rw [decodeIhu_tail (by decide) encoding]; simp only [planIhu, encoding]
      | ipv4 => rw [decodeIhu_tail (by decide) encoding]; simp only [planIhu, encoding]
      | ipv6 => rw [decodeIhu_tail (by decide) encoding]; simp only [planIhu, encoding]
      | ipv6LinkLocal => rw [decodeIhu_tail (by decide) encoding]; simp only [planIhu, encoding]

theorem decodeRouterId_eq :
    (decodeRouterId value state).result = planRouterId value state >>= Plan.run state := by
  match value with
  | [] => rfl
  | [_] => rfl
  | r0 :: r1 :: fields =>
    have size : (r0 :: r1 :: fields).length < 10 ↔ fields.length < 8 := by
      simp only [List.length_cons]
      omega
    simp only [decodeRouterId, planRouterId, size, result_ite, result_bind, result_check,
      result_pure, slice_cons, sliceFrom_cons]
    split
    · rfl
    · rename_i long
      rw [slice_front (not_lt.mp long), ok_bind, sliceFrom_ok (not_lt.mp long)]
      cases RouterId.ofOctets (fields.take 8) with
      | none => rfl
      | some id =>
        simp only [orFail_some, ok_bind, result_hasUnknownMandatory, run_plain, bind_assoc]

/-- The fields of a Next Hop behind its encoding. -/
theorem decodeNextHop_tail {e r : UInt8} (encoding : AddressEncoding.fromU8 e = some ae)
    (real : ae = .ipv4 ∨ ae = .ipv6 ∨ ae = .ipv6LinkLocal) (state : ParserState) :
    (decodeNextHop (e :: r :: rest) state).result =
      (if rest.length < ae.addressLen.getD 0 then fail (.invalidTlv TLV_NEXT_HOP)
        else match addressOf ae (rest.take (ae.addressLen.getD 0)) with
          | none => fail (.invalidTlv TLV_NEXT_HOP)
          | some address =>
            .ok (.plain (rest.drop (ae.addressLen.getD 0)) .hello (state.setNextHop address) fun _ =>
              .nextHop address)) >>= Plan.run state := by
  have size : ∀ n, (e :: r :: rest).length < n + 2 ↔ rest.length < n := by
    intro n
    simp only [List.length_cons]
    omega
  have tail : (decodeNextHop (e :: r :: rest) state).result = (do
      let addrLen ← orFail (.invalidTlv TLV_NEXT_HOP) ae.addressLen
      if rest.length < addrLen then fail (.invalidTlv TLV_NEXT_HOP)
      else do
        let address ← orFail (.invalidTlv TLV_NEXT_HOP)
          (← decodeAddress ae (← slice rest 0 addrLen))
        let discarded ← (hasUnknownMandatory (← sliceFrom rest addrLen)).result
        return (unlessMandatory discarded (.nextHop address), state.setNextHop address)) := by
    simp only [decodeNextHop, result_ite, result_bind, result_check, index_cons_zero, ok_bind,
      encoding, slice_cons, size, Nat.add_comm 2, sliceFrom_cons]
    rcases real with rfl | rfl | rfl <;>
      simp only [result_bind, result_check, result_ite] <;> rfl
  rw [tail, orFail_addressLen, ok_bind]
  split
  · rfl
  · rename_i whole
    have fits := not_lt.mp whole
    have sized : (rest.take (ae.addressLen.getD 0)).length = ae.addressLen.getD 0 := by
      rw [List.length_take, Nat.min_eq_left fits]
    rw [slice_front fits, ok_bind, decodeAddress_eq sized, ok_bind, sliceFrom_ok fits]
    cases addressOf ae (rest.take (ae.addressLen.getD 0)) with
    | none => rfl
    | some address =>
      simp only [orFail_some, ok_bind, result_hasUnknownMandatory, run_plain, bind_assoc]
      rfl

theorem decodeNextHop_eq :
    (decodeNextHop value state).result = planNextHop value state >>= Plan.run state := by
  match value with
  | [] => rfl
  | [_] => rfl
  | e :: r :: rest =>
    have long : ¬ (e :: r :: rest).length < 2 := by simp
    cases encoding : AddressEncoding.fromU8 e with
    | none =>
      simp only [decodeNextHop, if_neg long, result_bind, result_check, index_cons_zero, ok_bind,
        encoding, planNextHop]
      rfl
    | some ae =>
      cases ae with
      | wildcard =>
        simp only [decodeNextHop, if_neg long, result_bind, result_check, index_cons_zero, ok_bind,
          encoding, planNextHop]
        rfl
      | ipv4ViaIpv6 =>
        simp only [decodeNextHop, if_neg long, result_bind, result_check, index_cons_zero, ok_bind,
          encoding, planNextHop]
        rfl
      | ipv4 => rw [decodeNextHop_tail encoding (by decide)]; simp only [planNextHop, encoding]
      | ipv6 => rw [decodeNextHop_tail encoding (by decide)]; simp only [planNextHop, encoding]
      | ipv6LinkLocal =>
        rw [decodeNextHop_tail encoding (by decide)]; simp only [planNextHop, encoding]

theorem decodePrefixUpdate_eq (fields : UpdateFields) {head : List UInt8} (ten : head.length = 10)
    (state : ParserState) :
    (decodePrefixUpdate fields (head ++ rest) state).result =
      planPrefixUpdate fields rest state >>= Plan.run state := by
  unfold decodePrefixUpdate planPrefixUpdate
  rw [raw_prefixEncodedLen, check_ok_bind]
  cases prefixEncodedLen fields.ae fields.plen with
  | none => rfl
  | some encodedLen =>
    simp only [orFail_some, check_ok_bind]
    by_cases excess : encodedLen < fields.omitted
    · rw [if_pos excess, if_pos (.inl excess)]
      rfl
    · have natural : 10 + encodedLen - fields.omitted =
          head.length + (encodedLen - fields.omitted) := by omega
      rw [if_neg excess, sub_ok (by omega), check_ok_bind, natural, List.length_append]
      by_cases short : rest.length < encodedLen - fields.omitted
      · rw [if_pos (by omega), if_pos (.inr short)]
        rfl
      · have cut : (slice (head ++ rest) 10 (head.length + (encodedLen - fields.omitted)) :
            Checked WireError _) = .ok (rest.take (encodedLen - fields.omitted)) := by
          rw [slice_ok ⟨by omega, by simp; omega⟩, List.take_length_add_append,
            List.drop_left' ten]
        have tail : (sliceFrom (head ++ rest) (head.length + (encodedLen - fields.omitted)) :
            Checked WireError _) = .ok (rest.drop (encodedLen - fields.omitted)) := by
          rw [sliceFrom_ok (by simp; omega), List.drop_length_add_append]
        rw [if_neg (by omega), if_neg (by simp [excess, short]), cut, check_ok_bind,
          decodePrefix_eq, check_ok_bind]
        cases prefixOf fields.ae fields.plen fields.omitted
            (rest.take (encodedLen - fields.omitted)) (state.prefixes.get? fields.ae) with
        | none => rfl
        | some net =>
          simp only [absorbPrefix_eq, tail, check_ok_bind, ok_bind, Plan.run, Reading.run,
            Reading.ofUpdate, result_bind, result_ite, result_check, result_pure, bind_assoc,
            pure_bind]
          rfl

theorem decodeWildcardUpdate_eq (fields : UpdateFields) (rest : List UInt8) (state : ParserState) :
    (if fields.metric ≠ INFINITY then .ok (none, state)
      else (keeping state (decodeWildcardUpdate fields rest)).result) =
      (planWildcardUpdate fields rest state).run state := by
  unfold planWildcardUpdate
  by_cases finite : fields.metric = INFINITY
  · rw [if_neg (not_not.mpr finite), decodeWildcardUpdate]
    by_cases odd : fields.plen ≠ 0 ∨ fields.omitted ≠ 0
    · rw [if_pos odd, if_pos (.inr odd)]
      rfl
    · rw [if_neg odd, if_neg (by simp_all), result_keeping, result_bind, bind_assoc]
      refine congrArg _ (funext fun sub => ?_)
      cases sub.mandatoryUnknown <;> rfl
  · rw [if_pos finite, if_pos (.inl finite)]
    rfl

theorem decodeUpdate_eq :
    (decodeUpdate value state).result = planUpdate value state >>= Plan.run state := by
  match value with
  | [] => rfl
  | [_] => rfl
  | [_, _] => rfl
  | [_, _, _] => rfl
  | [_, _, _, _] => rfl
  | [_, _, _, _, _] => rfl
  | [_, _, _, _, _, _] => rfl
  | [_, _, _, _, _, _, _] => rfl
  | [_, _, _, _, _, _, _, _] => rfl
  | [_, _, _, _, _, _, _, _, _] => rfl
  | e :: flags :: plen :: omitted :: i0 :: i1 :: s0 :: s1 :: m0 :: m1 :: rest =>
    have long : ¬ (e :: flags :: plen :: omitted :: i0 :: i1 :: s0 :: s1 :: m0 :: m1 ::
      rest).length < 10 := by simp
    simp only [decodeUpdate, if_neg long, index_cons_zero, index_cons_succ, check_ok_bind,
      slice_cons, slice_zero_two, be16_cons, sliceFrom_cons, sliceFrom_zero, planUpdate]
    cases AddressEncoding.fromU8 e with
    | none => rfl
    | some ae =>
      simp only [planUpdateFields, result_ite]
      split
      · rfl
      split
      · rw [ok_bind, ← decodeWildcardUpdate_eq]
        rfl
      split
      · rfl
      · exact decodePrefixUpdate_eq _ (show [e, flags, plen, omitted, i0, i1, s0, s1, m0,
          m1].length = 10 from rfl) state

theorem decodeRequestKey_eq (type : UInt8) (ae : AddressEncoding) (plen : Nat) {size : Nat}
    (fits : size ≤ rest.length) (state : ParserState) (finish : RouteKey → List SubTlv → Tlv) :
    (keeping state (do
        let decoded ← decodeRequestKey type ae plen size rest
        return decoded.map fun found => finish found.1 found.2)).result =
      planRequest type ae plen size rest state finish >>= Plan.run state := by
  unfold decodeRequestKey planRequest
  rw [slice_front fits, check_ok_bind, decodePrefix_eq, check_ok_bind, sliceFrom_ok fits]
  cases prefixOf ae plen 0 (rest.take size) none with
  | none => rfl
  | some net =>
    simp only [orFail_some, check_ok_bind, ok_bind, Plan.run, Reading.run, result_keeping,
      result_bind, bind_assoc]
    refine congrArg _ (funext fun sub => ?_)
    cases sub.mandatoryUnknown with
    | true => rfl
    | false =>
      cases RouteKey.new net sub.sourcePrefix <;> rfl

theorem decodeRouteRequest_eq :
    (keeping state (decodeRouteRequest value)).result =
      planRouteRequest value state >>= Plan.run state := by
  match value with
  | [] => rfl
  | [_] => rfl
  | e :: plen :: rest =>
    have size : ∀ n, (e :: plen :: rest).length < n + 2 ↔ rest.length < n := by
      intro n
      simp only [List.length_cons]
      omega
    have zero : plen.toNat ≠ 0 ↔ plen ≠ 0 := by
      rw [Ne, Ne, ← UInt8.toNat_inj]
      rfl
    simp only [decodeRouteRequest, index_cons_zero, index_cons_succ, check_ok_bind, planRouteRequest,
      sliceFrom_cons, sliceFrom_zero, Nat.add_comm 2, size, Nat.not_lt_zero, if_false,
      raw_prefixEncodedLen, zero]
    cases AddressEncoding.fromU8 e with
    | none => rfl
    | some ae =>
      simp only
      split
      · split
        · rfl
        · simp only [result_keeping, result_bind, bind_assoc, ok_bind, Plan.run, Reading.run]
          refine congrArg _ (funext fun sub => ?_)
          cases sub.mandatoryUnknown <;> rfl
      · cases prefixEncodedLen ae plen.toNat with
        | none => rfl
        | some width =>
          simp only [orFail_some, check_ok_bind]
          split
          · rfl
          · exact decodeRequestKey_eq _ _ _ (not_lt.mp ‹_›) state fun key subTlvs =>
              .routeRequest (some key) subTlvs

theorem decodeSeqnoRequest_eq :
    (keeping state (decodeSeqnoRequest value)).result =
      planSeqnoRequest value state >>= Plan.run state := by
  match value with
  | [] => rfl
  | [_] => rfl
  | [_, _] => rfl
  | [_, _, _] => rfl
  | [_, _, _, _] => rfl
  | [_, _, _, _, _] => rfl
  | e :: plen :: s0 :: s1 :: hopCount :: r :: fields =>
    have size : ∀ n, (e :: plen :: s0 :: s1 :: hopCount :: r :: fields).length < n + 6 ↔
        fields.length < n := by
      intro n
      simp only [List.length_cons]
      omega
    have whole : ∀ n, 14 + n = 8 + n + 6 := by omega
    have short : (e :: plen :: s0 :: s1 :: hopCount :: r :: fields).length < 14 ↔
        fields.length < 8 := size 8
    simp only [decodeSeqnoRequest, index_cons_zero, index_cons_succ, check_ok_bind, planSeqnoRequest,
      sliceFrom_cons, slice_cons, slice_zero_two, be16_cons, short, whole, size,
      raw_prefixEncodedLen]
    split
    · rfl
    · rename_i eight
      have fits := not_lt.mp eight
      cases AddressEncoding.fromU8 e with
      | none => rfl
      | some ae =>
        simp only
        split
        · rfl
        cases prefixEncodedLen ae plen.toNat with
        | none => rfl
        | some width =>
          simp only [orFail_some, check_ok_bind]
          split
          · rfl
          have enough : width ≤ (fields.drop 8).length := by
            rw [List.length_drop]
            omega
          rw [slice_front fits, check_ok_bind, sliceFrom_ok fits]
          cases RouterId.ofOctets (fields.take 8) with
          | none => rfl
          | some routerId =>
            simp only [orFail_some, check_ok_bind]
            exact decodeRequestKey_eq _ _ _ enough state fun key subTlvs =>
              .seqnoRequest key (u16 s0 s1) hopCount routerId subTlvs

/-- Every TLV is decoded by running its plan. -/
theorem decodeTlv_eq (type : UInt8) (value : List UInt8) (state : ParserState) :
    decodeTlv type value state = planTlv type value state >>= Plan.run state := by
  simp only [decodeTlv, Loops.decodeTlv, planTlv, result_ite]
  split
  · rfl
  split
  · exact decodeAckRequest_eq value state
  split
  · exact decodeAck_eq value state
  split
  · exact decodeHello_eq value state
  split
  · exact decodeIhu_eq value state
  split
  · exact decodeRouterId_eq value state
  split
  · exact decodeNextHop_eq value state
  split
  · exact decodeUpdate_eq value state
  split
  · exact decodeRouteRequest_eq value state
  split
  · exact decodeSeqnoRequest_eq value state
  · rfl

end BabelRs.Wire
