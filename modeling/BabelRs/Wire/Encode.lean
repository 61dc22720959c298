import BabelRs.Wire.Prefix

/-!
# Encoding semantic TLVs

Models `wire/encode.rs`.  Encoding a TLV gives the frames it appends, the Router-ID and
Next-Hop TLVs it needs first included, and the context those leave behind.
-/

set_option autoImplicit false

namespace BabelRs.Wire

open Lib

/-- What a receiver of the packet so far holds. -/
structure EncodeContext where
  routerId : Option RouterId
  nextHopV4 : Option IpAddr
  nextHopV6 : Option IpAddr
deriving DecidableEq

def EncodeContext.default : EncodeContext := ⟨none, none, none⟩

def frameBytes (out : List Frame) : List UInt8 := out.flatMap Frame.bytes

/-! ## Sub-TLVs -/

def encodeSubTlv : SubTlv → Except WireError (List Frame)
  | .sourcePrefix _ => .ok []
  | .pad1 => .ok [.pad1]
  | .padN body => do
    requireZeroes body 1
    return [← putTlv 1 body]
  | .timestampHello timestamp => do return [← putTlv SUBTLV_TIMESTAMP (be32Bytes timestamp)]
  | .timestampIhu origin received => do
    return [← putTlv SUBTLV_TIMESTAMP (be32Bytes origin ++ be32Bytes received)]
  | .unknown type value => do return [← putTlv type value]

def encodeSubTlvs (values : List SubTlv) : Except WireError (List Frame) := do
  return (← values.mapM encodeSubTlv).flatten

def encodeSourcePrefix (source : Option IpNet) (ae : AddressEncoding) :
    Except WireError (List Frame) :=
  match source with
  | none => .ok []
  | some net => do
    return [← putTlv SUBTLV_SOURCE_PREFIX
      (UInt8.ofNat net.prefixLen :: prefixWireBytes net ae)]

/-- The prefix of a key, its source prefix and the other sub-TLVs. -/
def encodeKeyTail (key : RouteKey) (ae : AddressEncoding) (subTlvs : List SubTlv) :
    Except WireError (List UInt8) := do
  let source ← encodeSourcePrefix key.source ae
  let others ← encodeSubTlvs subTlvs
  return prefixWireBytes key.destination ae ++ frameBytes source ++ frameBytes others

/-! ## Context -/

def encodeRouterId (id : RouterId) : Except WireError Frame :=
  putTlv TLV_ROUTER_ID ([0, 0] ++ id.toOctets)

def encodeNextHop (address : IpAddr) : Except WireError Frame :=
  let (ae, bytes) := encodeAddress address
  putTlv TLV_NEXT_HOP ([ae.toU8, 0] ++ bytes)

/-- The Router-ID a finite Update relies on, written unless it is already in force. -/
def establishRouterId (update : OutboundUpdate) (context : EncodeContext) :
    Except WireError (List Frame × EncodeContext) :=
  if update.key.isSome ∧ update.metric ≠ INFINITY then
    match update.routerId with
    | none => .error .missingRouterId
    | some id =>
      if context.routerId = some id then .ok ([], context)
      else do return ([← encodeRouterId id], { context with routerId := some id })
  else .ok ([], context)

/-- The explicit next hop of a finite Update, written unless it is already in force. -/
def establishNextHop (update : OutboundUpdate) (context : EncodeContext) :
    Except WireError (List Frame × EncodeContext) :=
  if update.metric = INFINITY then .ok ([], context)
  else match update.nextHop with
    | none => .ok ([], context)
    | some hop =>
      if update.v4ViaV6 ∨ hop.isIpv6 then
        if context.nextHopV6 = some hop then .ok ([], context)
        else do return ([← encodeNextHop hop], { context with nextHopV6 := some hop })
      else
        if context.nextHopV4 = some hop then .ok ([], context)
        else do return ([← encodeNextHop hop], { context with nextHopV4 := some hop })

/-! ## TLVs -/

def encodeUpdate (update : OutboundUpdate) : Except WireError Frame :=
  let numbers := be16Bytes update.intervalCs ++ be16Bytes update.seqno ++ be16Bytes update.metric
  match update.key with
  | none => putTlv TLV_UPDATE ([0, 0, 0, 0] ++ numbers)
  | some key => do
    let ae := aeForKey key update.v4ViaV6
    putTlv TLV_UPDATE ([ae.toU8, 0, UInt8.ofNat key.destination.prefixLen, 0] ++ numbers
      ++ (← encodeKeyTail key ae update.subTlvs))

def encodeRouteRequest (key : Option RouteKey) (subTlvs : List SubTlv) : Except WireError Frame :=
  match key with
  | none => do putTlv TLV_ROUTE_REQUEST ([0, 0] ++ frameBytes (← encodeSubTlvs subTlvs))
  | some key => do
    let ae := aeForKey key false
    putTlv TLV_ROUTE_REQUEST ([ae.toU8, UInt8.ofNat key.destination.prefixLen]
      ++ (← encodeKeyTail key ae subTlvs))

def encodeOutboundTlv (tlv : OutboundTlv) (context : EncodeContext) :
    Except WireError (List Frame × EncodeContext) :=
  match tlv with
  | .pad1 => .ok ([.pad1], context)
  | .padN body => do
    requireZeroes body TLV_PADN
    return ([← putTlv TLV_PADN body], context)
  | .ackRequest nonce intervalCs => do
    requireNonzero intervalCs TLV_ACK_REQ
    return ([← putTlv TLV_ACK_REQ ([0, 0] ++ be16Bytes nonce ++ be16Bytes intervalCs)], context)
  | .ack nonce => do return ([← putTlv TLV_ACK (be16Bytes nonce)], context)
  | .hello unicast seqno intervalCs subTlvs => do
    let flags : UInt16 := if unicast then 0x8000 else 0
    let subs ← encodeSubTlvs subTlvs
    return ([← putTlv TLV_HELLO (be16Bytes flags ++ be16Bytes seqno ++ be16Bytes intervalCs
      ++ frameBytes subs)], context)
  | .ihu address rxcost intervalCs subTlvs => do
    requireNonzero intervalCs TLV_IHU
    let (ae, bytes) := encodeOptionalAddress address
    let subs ← encodeSubTlvs subTlvs
    return ([← putTlv TLV_IHU ([ae.toU8, 0] ++ be16Bytes rxcost ++ be16Bytes intervalCs ++ bytes
      ++ frameBytes subs)], context)
  | .update update => do
    requireNonzero update.intervalCs TLV_UPDATE
    let (identity, context) ← establishRouterId update context
    let (hop, context) ← establishNextHop update context
    return (identity ++ hop ++ [← encodeUpdate update], context)
  | .routeRequest key subTlvs => do return ([← encodeRouteRequest key subTlvs], context)
  | .seqnoRequest key seqno hopCount routerId subTlvs => do
    requireNonzero hopCount.toUInt16 TLV_SEQNO_REQUEST
    let ae := aeForKey key false
    return ([← putTlv TLV_SEQNO_REQUEST ([ae.toU8, UInt8.ofNat key.destination.prefixLen]
      ++ be16Bytes seqno ++ [hopCount, 0] ++ routerId.toOctets
      ++ (← encodeKeyTail key ae subTlvs))], context)
  | .unknown type value => do return ([← putTlv type value], context)

end BabelRs.Wire
