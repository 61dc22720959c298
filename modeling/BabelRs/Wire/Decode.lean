import BabelRs.Lib.AssocMap
import BabelRs.Lib.Walk
import BabelRs.Wire.Prefix

/-!
# Decoding

Models `wire/decode.rs`.  The framing loops walk by offset, with as much fuel as there are
octets; every index, slice and subtraction of the source is a checked one, and every pass of a
loop is counted.  A TLV that decodes to nothing is `none`, and the packet-local context it
leaves is passed on.
-/

set_option autoImplicit false

namespace BabelRs.Wire

open Lib Lib.Checked Lib.Metered

/-! ## Sub-TLVs -/

inductive SubContext where
  | hello
  | ihu
  | prefixed (ae : AddressEncoding)
deriving DecidableEq, Repr

structure DecodedSubTlvs where
  values : List SubTlv
  sourcePrefix : Option IpNet
  mandatoryUnknown : Bool
deriving DecidableEq, Repr

namespace DecodedSubTlvs

def start : DecodedSubTlvs := ⟨[], none, false⟩

def push (result : DecodedSubTlvs) (value : SubTlv) : DecodedSubTlvs :=
  { result with values := result.values ++ [value] }

def refuse (result : DecodedSubTlvs) : DecodedSubTlvs := { result with mandatoryUnknown := true }

end DecodedSubTlvs

def decodeTimestamp (context : SubContext) (body : List UInt8) : Checked WireError SubTlv :=
  match context with
  | .hello =>
    if 4 ≤ body.length then do return .timestampHello (← be32 body)
    else .ok (.unknown SUBTLV_TIMESTAMP body)
  | .ihu =>
    if 8 ≤ body.length then do return .timestampIhu (← be32 body) (← be32 (← sliceFrom body 4))
    else .ok (.unknown SUBTLV_TIMESTAMP body)
  | .prefixed _ => .ok (.unknown SUBTLV_TIMESTAMP body)

/-- `none` where the source counts the sub-TLV as an unknown mandatory one. -/
def decodeSourcePrefix (context : SubContext) (destination : Option IpNet)
    (result : DecodedSubTlvs) (body : List UInt8) : Checked WireError (Option IpNet) :=
  match context with
  | .hello | .ihu => .ok none
  | .prefixed ae =>
    if result.sourcePrefix.isSome ∨ ae = .wildcard ∨ body = [] then .ok none
    else do
      let plen ← index body 0
      if plen = 0 then return none
      else match ← Raw.prefixEncodedLen ae plen.toNat with
        | none => return none
        | some size =>
          if body.length < 1 + size then return none
          else do
            let net ← decodePrefix ae plen.toNat 0 (← slice body 1 (1 + size)) none
            return net.filter fun net => !destination.any fun target => target.isIpv4 != net.isIpv4

def decodeSubTlv (context : SubContext) (destination : Option IpNet) (result : DecodedSubTlvs) :
    Frame → Checked WireError DecodedSubTlvs
  | .pad1 => .ok (result.push .pad1)
  | .tlv type body =>
    if type = 1 then .ok (result.push (.padN body))
    else if type = SUBTLV_TIMESTAMP then do
      return result.push (← decodeTimestamp context body)
    else if type = SUBTLV_SOURCE_PREFIX then do
      match ← decodeSourcePrefix context destination result body with
      | none => return result.refuse
      | some net => return { result with sourcePrefix := some net }
    else
      let result := if type &&& 0x80 ≠ 0 then result.refuse else result
      .ok (result.push (.unknown type body))

/-! ## Packet context -/

structure ParserState where
  routerId : Option RouterId
  prefixes : AssocMap AddressEncoding (List UInt8)
  nextHopV4 : Option IpAddr
  nextHopV6 : Option IpAddr

namespace ParserState

def new (source : IpAddr) : ParserState where
  routerId := none
  prefixes := .empty
  nextHopV4 := if source.isIpv4 then some source else none
  nextHopV6 := if source.isIpv4 then none else some source

def setNextHop (state : ParserState) (address : IpAddr) : ParserState :=
  if address.isIpv4 then { state with nextHopV4 := some address }
  else { state with nextHopV6 := some address }

end ParserState

/-! ## Straight-line parts -/

def unlessMandatory (discarded : Bool) (tlv : Tlv) : Option Tlv :=
  if discarded then none else some tlv

/-- The address of an IHU; the wildcard encoding stands for no address. -/
def decodeIhuAddress (ae : AddressEncoding) (data : List UInt8) :
    Checked WireError (Option IpAddr) :=
  if ae = .wildcard then .ok none
  else do return some (← orFail (.invalidTlv TLV_IHU) (← decodeAddress ae data))

structure UpdateFields where
  ae : AddressEncoding
  flags : UInt8
  plen : Nat
  omitted : Nat
  intervalCs : UInt16
  seqno : UInt16
  metric : UInt16

/-- The default prefix of the encoding, with its implicit trailing zeroes. -/
def rememberPrefix (fields : UpdateFields) (net : IpNet) (state : ParserState) :
    Checked WireError ParserState :=
  if fields.flags &&& 0x80 ≠ 0 then do
    let bytes ← Raw.prefixWireBytes net fields.ae
    let size ← orFail (.invalidTlv TLV_UPDATE) fields.ae.addressLen
    -- `resize` cuts or zero-extends
    let resized := bytes.take size ++ List.replicate (size - bytes.length) 0
    return { state with prefixes := state.prefixes.insert fields.ae resized }
  else .ok state

/-- The Router-ID in the last octets of the prefix. -/
def rememberRouterId (fields : UpdateFields) (net : IpNet) (state : ParserState) :
    Checked WireError ParserState :=
  if fields.flags &&& 0x40 ≠ 0 then do
    return { state with routerId := RouterId.ofOctets (← Raw.routerIdFromPrefix net) }
  else .ok state

/-- What an Update leaves for later ones, before its sub-TLVs are looked at. -/
def absorbPrefix (fields : UpdateFields) (net : IpNet) (state : ParserState) :
    Checked WireError ParserState := do
  rememberRouterId fields net (← rememberPrefix fields net state)

/-- The resolved Update, if the context has what it relies on. -/
def resolveUpdate (fields : UpdateFields) (key : RouteKey) (net : IpNet) (state : ParserState)
    (subTlvs : List SubTlv) : Option Tlv :=
  let viaV6 := decide (fields.ae = .ipv4ViaIpv6)
  if fields.metric = INFINITY then
    some (.update ⟨some key, state.routerId, none, fields.intervalCs, fields.seqno, fields.metric,
      viaV6, subTlvs⟩)
  else do
    let routerId ← state.routerId
    let nextHop ← if viaV6 ∨ !net.isIpv4 then state.nextHopV6 else state.nextHopV4
    return .update ⟨some key, some routerId, some nextHop, fields.intervalCs, fields.seqno,
      fields.metric, viaV6, subTlvs⟩

/-! ## TLVs -/

namespace Loops

def decodeSubTlvs (data : List UInt8) (context : SubContext) (destination : Option IpNet) :
    Metered WireError DecodedSubTlvs :=
  walk .invalidTlv (fun result frame => check (decodeSubTlv context destination result frame)) data
    data.length 0 .start

def hasUnknownMandatory (data : List UInt8) : Metered WireError Bool := do
  return (← decodeSubTlvs data .hello none).mandatoryUnknown

def decodeAckRequest (value : List UInt8) : Metered WireError (Option Tlv) :=
  if value.length < 6 then check (fail (.invalidTlv TLV_ACK_REQ))
  else do
    let intervalCs ← check (be16 (← check (slice value 4 6)))
    if intervalCs = 0 then check (fail (.invalidTlv TLV_ACK_REQ))
    else do
      let discarded ← hasUnknownMandatory (← check (sliceFrom value 6))
      let nonce ← check (be16 (← check (slice value 2 4)))
      return unlessMandatory discarded (.ackRequest nonce intervalCs)

def decodeAck (value : List UInt8) : Metered WireError (Option Tlv) :=
  if value.length < 2 then check (fail (.invalidTlv TLV_ACK))
  else do
    let discarded ← hasUnknownMandatory (← check (sliceFrom value 2))
    return unlessMandatory discarded (.ack (← check (be16 value)))

def decodeHello (value : List UInt8) : Metered WireError (Option Tlv) :=
  if value.length < 6 then check (fail (.invalidTlv TLV_HELLO))
  else do
    let subTlvs ← decodeSubTlvs (← check (sliceFrom value 6)) .hello none
    let flags ← check (be16 value)
    let seqno ← check (be16 (← check (slice value 2 4)))
    let intervalCs ← check (be16 (← check (slice value 4 6)))
    return unlessMandatory subTlvs.mandatoryUnknown
      (.hello (flags &&& 0x8000 ≠ 0) seqno intervalCs subTlvs.values)

def decodeIhu (value : List UInt8) : Metered WireError (Option Tlv) :=
  if value.length < 6 then check (fail (.invalidTlv TLV_IHU))
  else do
    match AddressEncoding.fromU8 (← check (index value 0)) with
    | none => return none
    | some .ipv4ViaIpv6 => return none
    | some ae =>
      let addrLen ← check (orFail (.invalidTlv TLV_IHU) ae.addressLen)
      let intervalCs ← check (be16 (← check (slice value 4 6)))
      if value.length < 6 + addrLen ∨ intervalCs = 0 then check (fail (.invalidTlv TLV_IHU))
      else do
        let address ← check (decodeIhuAddress ae (← check (slice value 6 (6 + addrLen))))
        let subTlvs ← decodeSubTlvs (← check (sliceFrom value (6 + addrLen))) .ihu none
        let rxcost ← check (be16 (← check (slice value 2 4)))
        return unlessMandatory subTlvs.mandatoryUnknown
          (.ihu address rxcost intervalCs subTlvs.values)

/-- The Router-ID takes effect even where its TLV is discarded. -/
def decodeRouterId (value : List UInt8) (state : ParserState) :
    Metered WireError (Option Tlv × ParserState) :=
  if value.length < 10 then check (fail (.invalidTlv TLV_ROUTER_ID))
  else do
    let raw ← check (slice value 2 10)
    let id ← check (orFail (.invalidTlv TLV_ROUTER_ID) (RouterId.ofOctets raw))
    let discarded ← hasUnknownMandatory (← check (sliceFrom value 10))
    return (unlessMandatory discarded (.routerId id), { state with routerId := some id })

/-- So does the next hop. -/
def decodeNextHop (value : List UInt8) (state : ParserState) :
    Metered WireError (Option Tlv × ParserState) :=
  if value.length < 2 then check (fail (.invalidTlv TLV_NEXT_HOP))
  else do
    match AddressEncoding.fromU8 (← check (index value 0)) with
    | none => return (none, state)
    | some .wildcard => return (none, state)
    | some .ipv4ViaIpv6 => return (none, state)
    | some ae =>
      let addrLen ← check (orFail (.invalidTlv TLV_NEXT_HOP) ae.addressLen)
      if value.length < 2 + addrLen then check (fail (.invalidTlv TLV_NEXT_HOP))
      else do
        let decoded ← check (decodeAddress ae (← check (slice value 2 (2 + addrLen))))
        let address ← check (orFail (.invalidTlv TLV_NEXT_HOP) decoded)
        let discarded ← hasUnknownMandatory (← check (sliceFrom value (2 + addrLen)))
        return (unlessMandatory discarded (.nextHop address), state.setNextHop address)

/-! ## Updates -/

def decodeWildcardUpdate (fields : UpdateFields) (data : List UInt8) :
    Metered WireError (Option Tlv) :=
  if fields.plen ≠ 0 ∨ fields.omitted ≠ 0 then return none
  else do
    let sub ← decodeSubTlvs data (.prefixed .wildcard) none
    return unlessMandatory (sub.mandatoryUnknown || sub.sourcePrefix.isSome)
      (.update ⟨none, none, none, fields.intervalCs, fields.seqno, fields.metric, false, sub.values⟩)

/-- An Update with a prefix; one without its compression context is skipped. -/
def decodePrefixUpdate (fields : UpdateFields) (value : List UInt8) (state : ParserState) :
    Metered WireError (Option Tlv × ParserState) := do
  let encoded ← check (Raw.prefixEncodedLen fields.ae fields.plen)
  let encodedLen ← check (orFail (.invalidTlv TLV_UPDATE) encoded)
  if encodedLen < fields.omitted then check (fail (.invalidTlv TLV_UPDATE))
  else do
    let natural ← check (Checked.sub (10 + encodedLen) fields.omitted)
    if value.length < natural then check (fail (.invalidTlv TLV_UPDATE))
    else do
      let bytes ← check (slice value 10 natural)
      match ← check (decodePrefix fields.ae fields.plen fields.omitted bytes
          (state.prefixes.get? fields.ae)) with
      | none => return (none, state)
      | some net =>
        let state ← check (absorbPrefix fields net state)
        let sub ← decodeSubTlvs (← check (sliceFrom value natural)) (.prefixed fields.ae) (some net)
        if sub.mandatoryUnknown then return (none, state)
        else do
          let key ← check (orFail (.invalidTlv TLV_UPDATE) (RouteKey.new net sub.sourcePrefix))
          return (resolveUpdate fields key net state sub.values, state)

def decodeUpdate (value : List UInt8) (state : ParserState) :
    Metered WireError (Option Tlv × ParserState) :=
  if value.length < 10 then check (fail (.invalidTlv TLV_UPDATE))
  else do
    match AddressEncoding.fromU8 (← check (index value 0)) with
    | none => return (none, state)
    | some ae =>
      let fields : UpdateFields := {
        ae
        flags := ← check (index value 1)
        plen := (← check (index value 2)).toNat
        omitted := (← check (index value 3)).toNat
        intervalCs := ← check (be16 (← check (slice value 4 6)))
        seqno := ← check (be16 (← check (slice value 6 8)))
        metric := ← check (be16 (← check (slice value 8 10))) }
      if fields.intervalCs = 0 then check (fail (.invalidTlv TLV_UPDATE))
      else if ae = .wildcard then
        if fields.metric ≠ INFINITY then return (none, state)
        else return (← decodeWildcardUpdate fields (← check (sliceFrom value 10)), state)
      else if ae = .ipv6LinkLocal ∧ fields.omitted ≠ 0 then return (none, state)
      else decodePrefixUpdate fields value state

/-! ## Requests -/

/-- The key of a request and its sub-TLVs; `none` if a sub-TLV discards the request. -/
def decodeRequestKey (type : UInt8) (ae : AddressEncoding) (plen size : Nat) (data : List UInt8) :
    Metered WireError (Option (RouteKey × List SubTlv)) := do
  let decoded ← check (decodePrefix ae plen 0 (← check (slice data 0 size)) none)
  let net ← check (orFail (.invalidTlv type) decoded)
  let sub ← decodeSubTlvs (← check (sliceFrom data size)) (.prefixed ae) (some net)
  if sub.mandatoryUnknown then return none
  else do
    let key ← check (orFail (.invalidTlv type) (RouteKey.new net sub.sourcePrefix))
    return some (key, sub.values)

def decodeRouteRequest (value : List UInt8) : Metered WireError (Option Tlv) :=
  if value.length < 2 then check (fail (.invalidTlv TLV_ROUTE_REQUEST))
  else do
    match AddressEncoding.fromU8 (← check (index value 0)) with
    | none => return none
    | some ae =>
      let plen := (← check (index value 1)).toNat
      if ae = .wildcard then
        if plen ≠ 0 then return none
        else do
          let sub ← decodeSubTlvs (← check (sliceFrom value 2)) (.prefixed ae) none
          return unlessMandatory (sub.mandatoryUnknown || sub.sourcePrefix.isSome)
            (.routeRequest none sub.values)
      else do
        let encoded ← check (Raw.prefixEncodedLen ae plen)
        let size ← check (orFail (.invalidTlv TLV_ROUTE_REQUEST) encoded)
        if value.length < 2 + size then check (fail (.invalidTlv TLV_ROUTE_REQUEST))
        else do
          let decoded ← decodeRequestKey TLV_ROUTE_REQUEST ae plen size (← check (sliceFrom value 2))
          return decoded.map fun (key, subTlvs) => .routeRequest (some key) subTlvs

def decodeSeqnoRequest (value : List UInt8) : Metered WireError (Option Tlv) :=
  if value.length < 14 then check (fail (.invalidTlv TLV_SEQNO_REQUEST))
  else do
    match AddressEncoding.fromU8 (← check (index value 0)) with
    | none => return none
    | some ae =>
      if ae = .wildcard then return none
      else do
        let plen := (← check (index value 1)).toNat
        let encoded ← check (Raw.prefixEncodedLen ae plen)
        let size ← check (orFail (.invalidTlv TLV_SEQNO_REQUEST) encoded)
        let hopCount ← check (index value 4)
        if value.length < 14 + size ∨ hopCount = 0 then check (fail (.invalidTlv TLV_SEQNO_REQUEST))
        else do
          let raw ← check (slice value 6 14)
          let routerId ← check (orFail (.invalidTlv TLV_SEQNO_REQUEST) (RouterId.ofOctets raw))
          let seqno ← check (be16 (← check (slice value 2 4)))
          let decoded ← decodeRequestKey TLV_SEQNO_REQUEST ae plen size
            (← check (sliceFrom value 14))
          return decoded.map fun (key, subTlvs) =>
            .seqnoRequest key seqno hopCount routerId subTlvs

/-! ## Packets -/

/-- A TLV that leaves the context alone. -/
def keeping (state : ParserState) (decoded : Metered WireError (Option Tlv)) :
    Metered WireError (Option Tlv × ParserState) := do
  return (← decoded, state)

def decodeTlv (type : UInt8) (value : List UInt8) (state : ParserState) :
    Metered WireError (Option Tlv × ParserState) :=
  if type = TLV_PADN then return (some (.padN value), state)
  else if type = TLV_ACK_REQ then keeping state (decodeAckRequest value)
  else if type = TLV_ACK then keeping state (decodeAck value)
  else if type = TLV_HELLO then keeping state (decodeHello value)
  else if type = TLV_IHU then keeping state (decodeIhu value)
  else if type = TLV_ROUTER_ID then decodeRouterId value state
  else if type = TLV_NEXT_HOP then decodeNextHop value state
  else if type = TLV_UPDATE then decodeUpdate value state
  else if type = TLV_ROUTE_REQUEST then keeping state (decodeRouteRequest value)
  else if type = TLV_SEQNO_REQUEST then keeping state (decodeSeqnoRequest value)
  else return (some (.unknown type value), state)

def decodeFrame (parsed : List Tlv × ParserState) :
    Frame → Metered WireError (List Tlv × ParserState)
  | .pad1 => return (parsed.1 ++ [.pad1], parsed.2)
  | .tlv type value => do
    let (tlv, state) ← decodeTlv type value parsed.2
    return (parsed.1 ++ tlv.toList, state)

def decodeBody (body : List UInt8) (source : IpAddr) : Metered WireError Packet := do
  let (tlvs, _) ← walk .truncatedTlv decodeFrame body body.length 0 ([], .new source)
  return ⟨tlvs⟩

def decodePacket (data : List UInt8) (context : DecodeContext) : Metered WireError Packet :=
  if data.length < 4 then check (fail .shortHeader)
  else do
    if (← check (index data 0)) ≠ MAGIC then check (fail .badMagic)
    else do
      let version ← check (index data 1)
      if version ≠ VERSION then check (fail (.unsupportedVersion version))
      else do
        let bodyLen := ofBe [← check (index data 2), ← check (index data 3)]
        if data.length < 4 + bodyLen then check (fail .truncatedBody)
        else do decodeBody (← check (slice data 4 (4 + bodyLen))) context.source

end Loops

/-! ## Results -/

def decodeSubTlvs (data : List UInt8) (context : SubContext) (destination : Option IpNet) :
    Checked WireError DecodedSubTlvs :=
  (Loops.decodeSubTlvs data context destination).result

def decodeTlv (type : UInt8) (value : List UInt8) (state : ParserState) :
    Checked WireError (Option Tlv × ParserState) :=
  (Loops.decodeTlv type value state).result

def decodeFrame (parsed : List Tlv × ParserState) (frame : Frame) :
    Checked WireError (List Tlv × ParserState) :=
  (Loops.decodeFrame parsed frame).result

def decodeBody (body : List UInt8) (source : IpAddr) : Checked WireError Packet :=
  (Loops.decodeBody body source).result

def decodePacket (data : List UInt8) (context : DecodeContext) : Checked WireError Packet :=
  (Loops.decodePacket data context).result

end BabelRs.Wire
