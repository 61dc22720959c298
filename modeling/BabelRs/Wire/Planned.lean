import BabelRs.Wire.Plan

/-!
# What the fields of a TLV come to

Every plan the decoder can make, once for all that is proved about them: which TLV it
is for, what its fields guarantee, and that its sub-TLVs are the octets behind the fields.
-/

set_option autoImplicit false

namespace BabelRs.Wire

open Lib Lib.Checked

def Structured (type : UInt8) : Prop := 2 ≤ type ∧ type ≤ 10

theorem not_structured {type : UInt8} (ackRequest : type ≠ TLV_ACK_REQ) (ack : type ≠ TLV_ACK)
    (hello : type ≠ TLV_HELLO) (ihu : type ≠ TLV_IHU) (routerId : type ≠ TLV_ROUTER_ID)
    (nextHop : type ≠ TLV_NEXT_HOP) (update : type ≠ TLV_UPDATE)
    (routeRequest : type ≠ TLV_ROUTE_REQUEST) (seqnoRequest : type ≠ TLV_SEQNO_REQUEST) :
    ¬ Structured type := by
  simp only [Structured, UInt8.le_iff_toNat_le, ne_eq, ← UInt8.toNat_inj] at *
  simp only [TLV_ACK_REQ, TLV_ACK, TLV_HELLO, TLV_IHU, TLV_ROUTER_ID, TLV_NEXT_HOP, TLV_UPDATE,
    TLV_ROUTE_REQUEST, TLV_SEQNO_REQUEST, UInt8.reduceToNat] at *
  omega

def encodingAt (value : List UInt8) : AddressEncoding :=
  (AddressEncoding.fromU8 (value.getD 0 0)).getD .wildcard

def fieldsLength (type : UInt8) (value : List UInt8) : Nat :=
  let address := (encodingAt value).addressLen.getD 0
  let spelled (plen : UInt8) := (prefixEncodedLen (encodingAt value) plen.toNat).getD 0
  if type = TLV_ACK_REQ then 6
  else if type = TLV_ACK then 2
  else if type = TLV_HELLO then 6
  else if type = TLV_IHU then 6 + address
  else if type = TLV_ROUTER_ID then 10
  else if type = TLV_NEXT_HOP then 2 + address
  else if type = TLV_UPDATE then 10 + (spelled (value.getD 2 0) - (value.getD 3 0).toNat)
  else if type = TLV_ROUTE_REQUEST then 2 + spelled (value.getD 1 0)
  else 14 + spelled (value.getD 1 0)

/-- Whether the TLV is about a prefix, which a source prefix can narrow. -/
def HasPrefix (type : UInt8) (value : List UInt8) : Prop :=
  (type = TLV_UPDATE ∨ type = TLV_ROUTE_REQUEST ∨ type = TLV_SEQNO_REQUEST) ∧
    encodingAt value ≠ .wildcard

/-- A TLV for any prefix, which a source prefix discards. -/
def Reading.ofAny (rest : List UInt8) (state : ParserState) (tlv : List SubTlv → Tlv) : Reading :=
  ⟨rest, .prefixed .wildcard, none, state, fun sub => .ok
    (unlessMandatory sub.sourcePrefix.isSome (tlv sub.values))⟩

def Reading.ofRequest (type : UInt8) (ae : AddressEncoding) (net : IpNet) (rest : List UInt8)
    (state : ParserState) (finish : RouteKey → List SubTlv → Tlv) : Reading :=
  ⟨rest, .prefixed ae, some net, state, fun sub => do
    let key ← orFail (.invalidTlv type) (RouteKey.new net sub.sourcePrefix)
    return some (finish key sub.values)⟩

/-- The plans of the TLV with this type and value. -/
inductive Planned (state : ParserState) (type : UInt8) (value : List UInt8) : Plan → Prop
  | skip : Planned state type value .skip
  | whole {tlv : Tlv} (bare : ¬ Structured type)
      (same : tlv = .padN value ∨ tlv = .unknown type value) : Planned state type value (.whole tlv)
  | ackRequest (nonce intervalCs : UInt16) (interval : intervalCs ≠ 0) : Planned state type value
      (.plain (value.drop (fieldsLength type value)) .hello state fun _ =>
        .ackRequest nonce intervalCs)
  | ack (nonce : UInt16) : Planned state type value
      (.plain (value.drop (fieldsLength type value)) .hello state fun _ => .ack nonce)
  | hello (unicast : Bool) (seqno intervalCs : UInt16) (own : type = TLV_HELLO) :
      Planned state type value
        (.plain (value.drop (fieldsLength type value)) .hello state fun subTlvs =>
          .hello unicast seqno intervalCs subTlvs)
  | ihu (address : Option IpAddr) (rxcost intervalCs : UInt16) (interval : intervalCs ≠ 0) :
      Planned state type value
        (.plain (value.drop (fieldsLength type value)) .ihu state fun subTlvs =>
          .ihu address rxcost intervalCs subTlvs)
  | routerId (id : RouterId) : Planned state type value
      (.plain (value.drop (fieldsLength type value)) .hello { state with routerId := some id }
        fun _ => .routerId id)
  | nextHop (address : IpAddr) : Planned state type value
      (.plain (value.drop (fieldsLength type value)) .hello (state.setNextHop address) fun _ =>
        .nextHop address)
  | retractAll (intervalCs seqno metric : UInt16) (interval : intervalCs ≠ 0)
      (infinite : metric = INFINITY) : Planned state type value
      (.read (.ofAny (value.drop (fieldsLength type value)) state fun subTlvs =>
        .update ⟨none, none, none, intervalCs, seqno, metric, false, subTlvs⟩))
  | update (fields : UpdateFields) (net : IpNet) (own : type = TLV_UPDATE)
      (interval : fields.intervalCs ≠ 0) (about : HasPrefix type value)
      (family : net.isIpv4 = true ↔ fields.ae = .ipv4 ∨ fields.ae = .ipv4ViaIpv6) :
      Planned state type value
        (.read (.ofUpdate fields net (value.drop (fieldsLength type value)) state))
  | requestAll : Planned state type value
      (.read (.ofAny (value.drop (fieldsLength type value)) state fun subTlvs =>
        .routeRequest none subTlvs))
  | routeRequest (ae : AddressEncoding) (net : IpNet) (about : HasPrefix type value) :
      Planned state type value
        (.read (.ofRequest TLV_ROUTE_REQUEST ae net (value.drop (fieldsLength type value)) state
          fun key subTlvs => .routeRequest (some key) subTlvs))
  | seqnoRequest (ae : AddressEncoding) (net : IpNet) (seqno : UInt16) (hopCount : UInt8)
      (id : RouterId) (about : HasPrefix type value) (hops : hopCount ≠ 0) :
      Planned state type value
        (.read (.ofRequest TLV_SEQNO_REQUEST ae net (value.drop (fieldsLength type value)) state
          fun key subTlvs => .seqnoRequest key seqno hopCount id subTlvs))

theorem isIpv4_prefixOf {ae : AddressEncoding} {plen omitted : Nat} {suffix : List UInt8}
    {previous : Option (List UInt8)} {net : IpNet}
    (decoded : prefixOf ae plen omitted suffix previous = some net) :
    net.isIpv4 = true ↔ ae = .ipv4 ∨ ae = .ipv4ViaIpv6 := by
  obtain ⟨size, -, rest⟩ := Option.bind_eq_some_iff.mp decoded
  split at rest
  · cases rest
  obtain ⟨reused, -, spelled⟩ := Option.bind_eq_some_iff.mp rest
  unfold netOf at spelled
  cases ae <;> simp only [IpNet.newV4, IpNet.newV6] at spelled
  all_goals first
    | cases spelled
    | (split at spelled
       · cases spelled
         simp [IpNet.isIpv4]
       · cases spelled)

section Fields
variable {value : List UInt8} {state : ParserState} {plan : Plan}

theorem encodingAt_cons {encoding : UInt8} {rest : List UInt8} {ae : AddressEncoding}
    (known : AddressEncoding.fromU8 encoding = some ae) : encodingAt (encoding :: rest) = ae := by
  simp only [encodingAt, List.getD_cons_zero, known, Option.getD_some]

theorem planned_ackRequest (planned : planAckRequest value state = .ok plan) :
    Planned state TLV_ACK_REQ value plan := by
  unfold planAckRequest at planned
  split at planned
  · split at planned
    · cases planned
    · cases planned
      exact .ackRequest _ _ ‹_›
  · cases planned

theorem planned_ack (planned : planAck value state = .ok plan) :
    Planned state TLV_ACK value plan := by
  unfold planAck at planned
  split at planned <;> cases planned
  exact .ack _

theorem planned_hello (planned : planHello value state = .ok plan) :
    Planned state TLV_HELLO value plan := by
  unfold planHello at planned
  split at planned <;> cases planned
  exact .hello _ _ _ rfl

theorem planned_ihu (planned : planIhu value state = .ok plan) :
    Planned state TLV_IHU value plan := by
  unfold planIhu at planned
  split at planned
  · rename_i e r r0 r1 i0 i1 rest
    split at planned
    · cases planned
      exact .skip
    · cases planned
      exact .skip
    · rename_i ae real known
      simp only at planned
      split at planned
      · cases planned
      · rename_i whole
        cases planned
        have behind : rest.drop (ae.addressLen.getD 0) = (e :: r :: r0 :: r1 :: i0 :: i1 :: rest).drop
            (fieldsLength TLV_IHU (e :: r :: r0 :: r1 :: i0 :: i1 :: rest)) := by
          simp only [fieldsLength, encodingAt_cons known, Nat.add_comm 6]
          rfl
        rw [behind]
        exact .ihu _ _ _ (not_or.mp whole).2
  · cases planned

theorem planned_routerId (planned : planRouterId value state = .ok plan) :
    Planned state TLV_ROUTER_ID value plan := by
  unfold planRouterId at planned
  split at planned
  · split at planned
    · cases planned
    · split at planned <;> cases planned
      exact .routerId _
  · cases planned

theorem planned_nextHop (planned : planNextHop value state = .ok plan) :
    Planned state TLV_NEXT_HOP value plan := by
  unfold planNextHop at planned
  split at planned
  · rename_i e r rest
    split at planned
    · cases planned
      exact .skip
    · cases planned
      exact .skip
    · cases planned
      exact .skip
    · rename_i ae _ _ known
      simp only at planned
      split at planned
      · cases planned
      · split at planned
        · cases planned
        · cases planned
          have behind : rest.drop (ae.addressLen.getD 0) =
              (e :: r :: rest).drop (fieldsLength TLV_NEXT_HOP (e :: r :: rest)) := by
            simp only [fieldsLength, encodingAt_cons known, Nat.add_comm 2]
            rfl
          rw [behind]
          exact .nextHop _
  · cases planned

theorem planned_update (planned : planUpdate value state = .ok plan) :
    Planned state TLV_UPDATE value plan := by
  unfold planUpdate at planned
  split at planned
  · rename_i e flags plen omitted i0 i1 s0 s1 m0 m1 rest
    split at planned
    · cases planned
      exact .skip
    · rename_i ae known
      have encoding := @encodingAt_cons e (flags :: plen :: omitted :: i0 :: i1 :: s0 :: s1 :: m0 ::
        m1 :: rest) ae known
      unfold planUpdateFields at planned
      split at planned
      · cases planned
      rename_i interval
      split at planned
      · rename_i wild
        subst wild
        cases planned
        unfold planWildcardUpdate
        split
        · exact .skip
        · rename_i plain
          simp only [ne_eq, not_or, not_not] at plain
          have behind : rest = (e :: flags :: plen :: omitted :: i0 :: i1 :: s0 :: s1 :: m0 :: m1 ::
              rest).drop (fieldsLength TLV_UPDATE (e :: flags :: plen :: omitted :: i0 :: i1 :: s0 ::
                s1 :: m0 :: m1 :: rest)) := by
            simp only [fieldsLength, encoding, List.getD_cons_succ, List.getD_cons_zero,
              prefixEncodedLen, AddressEncoding.maxPrefixBits, plain.2.1, plain.2.2]
            rfl
          have made := @Planned.retractAll state TLV_UPDATE (e :: flags :: plen :: omitted :: i0 ::
            i1 :: s0 :: s1 :: m0 :: m1 :: rest) _ (u16 s0 s1) _ interval plain.1
          rw [← behind] at made
          exact made
      split at planned
      · cases planned
        exact .skip
      · rename_i prefixed _
        unfold planPrefixUpdate at planned
        split at planned
        · cases planned
        · rename_i size encoded
          simp only at planned encoded
          split at planned
          · cases planned
          split at planned
          · cases planned
            exact .skip
          · rename_i net decoded
            cases planned
            have behind : rest.drop (size - omitted.toNat) = (e :: flags :: plen :: omitted :: i0 ::
                i1 :: s0 :: s1 :: m0 :: m1 :: rest).drop (fieldsLength TLV_UPDATE (e :: flags ::
                  plen :: omitted :: i0 :: i1 :: s0 :: s1 :: m0 :: m1 :: rest)) := by
              simp only [fieldsLength, encoding, List.getD_cons_succ, List.getD_cons_zero, encoded,
                Option.getD_some, Nat.add_comm 10]
              rfl
            rw [behind]
            exact .update _ net rfl interval ⟨.inl rfl, encoding ▸ prefixed⟩
              (isIpv4_prefixOf decoded)
  · cases planned

theorem planRequest_eq_ok {type : UInt8} {ae : AddressEncoding} {plen size : Nat}
    {rest : List UInt8} {finish : RouteKey → List SubTlv → Tlv}
    (planned : planRequest type ae plen size rest state finish = .ok plan) :
    ∃ net, plan = .read (.ofRequest type ae net (rest.drop size) state finish) := by
  unfold planRequest at planned
  split at planned
  · cases planned
  · rename_i net _
    cases planned
    exact ⟨net, rfl⟩

theorem planned_routeRequest (planned : planRouteRequest value state = .ok plan) :
    Planned state TLV_ROUTE_REQUEST value plan := by
  unfold planRouteRequest at planned
  split at planned
  · rename_i e plen rest
    split at planned
    · cases planned
      exact .skip
    · rename_i ae known
      have encoding := @encodingAt_cons e (plen :: rest) ae known
      split at planned
      · rename_i wild
        subst wild
        split at planned
        · cases planned
          exact .skip
        · rename_i whole
          simp only [ne_eq, not_not] at whole
          subst whole
          cases planned
          have behind : rest = (e :: 0 :: rest).drop
              (fieldsLength TLV_ROUTE_REQUEST (e :: 0 :: rest)) := by
            simp only [fieldsLength, encoding, List.getD_cons_succ, List.getD_cons_zero]
            rfl
          have made := @Planned.requestAll state TLV_ROUTE_REQUEST (e :: 0 :: rest)
          rw [← behind] at made
          exact made
      · rename_i prefixed
        split at planned
        · cases planned
        · rename_i size encoded
          split at planned
          · cases planned
          · obtain ⟨net, rfl⟩ := planRequest_eq_ok planned
            have behind : rest.drop size = (e :: plen :: rest).drop
                (fieldsLength TLV_ROUTE_REQUEST (e :: plen :: rest)) := by
              simp only [fieldsLength, encoding, List.getD_cons_succ, List.getD_cons_zero, encoded,
                Option.getD_some, Nat.add_comm 2]
              rfl
            rw [behind]
            exact .routeRequest ae net ⟨.inr (.inl rfl), encoding ▸ prefixed⟩
  · cases planned

theorem planned_seqnoRequest (planned : planSeqnoRequest value state = .ok plan) :
    Planned state TLV_SEQNO_REQUEST value plan := by
  unfold planSeqnoRequest at planned
  split at planned
  · rename_i e plen s0 s1 hopCount r fields
    split at planned
    · cases planned
    split at planned
    · cases planned
      exact .skip
    · rename_i ae known
      have encoding := @encodingAt_cons e (plen :: s0 :: s1 :: hopCount :: r :: fields) ae known
      split at planned
      · cases planned
        exact .skip
      · rename_i prefixed
        split at planned
        · cases planned
        · rename_i size encoded
          split at planned
          · cases planned
          · rename_i whole
            split at planned
            · cases planned
            · obtain ⟨net, rfl⟩ := planRequest_eq_ok planned
              have behind : (fields.drop 8).drop size = (e :: plen :: s0 :: s1 :: hopCount :: r ::
                  fields).drop (fieldsLength TLV_SEQNO_REQUEST (e :: plen :: s0 :: s1 :: hopCount ::
                    r :: fields)) := by
                simp only [fieldsLength, encoding, List.getD_cons_succ, List.getD_cons_zero,
                  encoded, Option.getD_some, Nat.add_comm 14, List.drop_drop]
                rw [Nat.add_comm 8]
                rfl
              rw [behind]
              exact .seqnoRequest ae net _ _ _ ⟨.inr (.inr rfl), encoding ▸ prefixed⟩
                (not_or.mp whole).2
  · cases planned

/-- The plan of every TLV is one of these. -/
theorem planTlv_planned {type : UInt8} (planned : planTlv type value state = .ok plan) :
    Planned state type value plan := by
  unfold planTlv at planned
  split at planned
  · cases planned
    subst type
    exact .whole (by unfold Structured; decide) (.inl rfl)
  split at planned
  · subst type
    exact planned_ackRequest planned
  split at planned
  · subst type
    exact planned_ack planned
  split at planned
  · subst type
    exact planned_hello planned
  split at planned
  · subst type
    exact planned_ihu planned
  split at planned
  · subst type
    exact planned_routerId planned
  split at planned
  · subst type
    exact planned_nextHop planned
  split at planned
  · subst type
    exact planned_update planned
  split at planned
  · subst type
    exact planned_routeRequest planned
  split at planned
  · subst type
    exact planned_seqnoRequest planned
  · rename_i n2 n3 n4 n5 n6 n7 n8 n9 n10
    cases planned
    exact .whole (not_structured n2 n3 n4 n5 n6 n7 n8 n9 n10) (.inr rfl)

end Fields

end BabelRs.Wire
