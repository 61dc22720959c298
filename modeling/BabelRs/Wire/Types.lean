import BabelRs.Model

/-!
# Decoded and semantic TLVs

The data types of `wire.rs`: what the decoder hands to the engine and what the
engine hands to the packetizer, with the numbers both sides of the wire share.
-/

set_option autoImplicit false

namespace BabelRs

/-- Recognized sub-TLV payloads and retained unknown values. -/
inductive SubTlv where
  | pad1
  | padN (body : List UInt8)
  | timestampHello (timestamp : UInt32)
  | timestampIhu (origin received : UInt32)
  | sourcePrefix (net : IpNet)
  | unknown (type : UInt8) (value : List UInt8)
deriving DecidableEq, Repr

/-- An inbound Update after the decoder resolved Router-ID, Next-Hop and prefix. -/
structure ResolvedUpdate where
  key : Option RouteKey
  routerId : Option RouterId
  nextHop : Option IpAddr
  intervalCs : UInt16
  seqno : UInt16
  metric : UInt16
  v4ViaV6 : Bool
  subTlvs : List SubTlv
deriving DecidableEq

/-- Decoded inbound TLVs. -/
inductive Tlv where
  | pad1
  | padN (body : List UInt8)
  | ackRequest (nonce intervalCs : UInt16)
  | ack (nonce : UInt16)
  | hello (unicast : Bool) (seqno intervalCs : UInt16) (subTlvs : List SubTlv)
  | ihu (address : Option IpAddr) (rxcost intervalCs : UInt16) (subTlvs : List SubTlv)
  | routerId (id : RouterId)
  | nextHop (address : IpAddr)
  | update (update : ResolvedUpdate)
  | routeRequest (key : Option RouteKey) (subTlvs : List SubTlv)
  | seqnoRequest (key : RouteKey) (seqno : UInt16) (hopCount : UInt8) (routerId : RouterId)
      (subTlvs : List SubTlv)
  | unknown (type : UInt8) (value : List UInt8)
deriving DecidableEq

structure Packet where
  tlvs : List Tlv
deriving DecidableEq

/-- A semantic outbound Update; `key = none` represents a wildcard retraction and
`nextHop = none` the packet sender. -/
structure OutboundUpdate where
  key : Option RouteKey
  routerId : Option RouterId
  nextHop : Option IpAddr
  intervalCs : UInt16
  seqno : UInt16
  metric : UInt16
  v4ViaV6 : Bool
  subTlvs : List SubTlv
deriving DecidableEq

/-- Semantic outbound TLVs. -/
inductive OutboundTlv where
  | pad1
  | padN (body : List UInt8)
  | ackRequest (nonce intervalCs : UInt16)
  | ack (nonce : UInt16)
  | hello (unicast : Bool) (seqno intervalCs : UInt16) (subTlvs : List SubTlv)
  | ihu (address : Option IpAddr) (rxcost intervalCs : UInt16) (subTlvs : List SubTlv)
  | update (update : OutboundUpdate)
  | routeRequest (key : Option RouteKey) (subTlvs : List SubTlv)
  | seqnoRequest (key : RouteKey) (seqno : UInt16) (hopCount : UInt8) (routerId : RouterId)
      (subTlvs : List SubTlv)
  | unknown (type : UInt8) (value : List UInt8)
deriving DecidableEq

structure OutboundPacket where
  tlvs : List OutboundTlv
deriving DecidableEq

/-- Transport context for decoding one received datagram: the real sender address. -/
structure DecodeContext where
  source : IpAddr
deriving DecidableEq, Repr

/-- Invalid packet framing, TLV content or outbound packet budget. -/
inductive WireError where
  | shortHeader
  | badMagic
  | unsupportedVersion (version : UInt8)
  | truncatedBody
  | truncatedTlv (type : UInt8)
  | invalidTlv (type : UInt8)
  | bodyTooLarge
  | missingRouterId
  | packetBudgetTooSmall
  | packetSplitRequired
deriving DecidableEq, Repr

/-! ## Numbers of the wire format -/

namespace Wire

def MAGIC : UInt8 := 42
def VERSION : UInt8 := 2
def MAX_PACKET_SIZE : Nat := 65535 + 4

def TLV_PADN : UInt8 := 1
def TLV_ACK_REQ : UInt8 := 2
def TLV_ACK : UInt8 := 3
def TLV_HELLO : UInt8 := 4
def TLV_IHU : UInt8 := 5
def TLV_ROUTER_ID : UInt8 := 6
def TLV_NEXT_HOP : UInt8 := 7
def TLV_UPDATE : UInt8 := 8
def TLV_ROUTE_REQUEST : UInt8 := 9
def TLV_SEQNO_REQUEST : UInt8 := 10

def SUBTLV_TIMESTAMP : UInt8 := 3
def SUBTLV_SOURCE_PREFIX : UInt8 := 128

end Wire

/-- Babel address encoding, including the IPv4 one with an IPv6 next hop. -/
inductive AddressEncoding where
  | wildcard
  | ipv4
  | ipv6
  | ipv6LinkLocal
  | ipv4ViaIpv6
deriving DecidableEq, Repr

namespace AddressEncoding

def toU8 : AddressEncoding → UInt8
  | wildcard => 0
  | ipv4 => 1
  | ipv6 => 2
  | ipv6LinkLocal => 3
  | ipv4ViaIpv6 => 4

def fromU8 (value : UInt8) : Option AddressEncoding :=
  [wildcard, ipv4, ipv6, ipv6LinkLocal, ipv4ViaIpv6].find? fun encoding => encoding.toU8 = value

def addressLen : AddressEncoding → Option Nat
  | wildcard => some 0
  | ipv4 | ipv4ViaIpv6 => some 4
  | ipv6 => some 16
  | ipv6LinkLocal => some 8

def maxPrefixBits : AddressEncoding → Option Nat
  | wildcard => some 0
  | ipv4 | ipv4ViaIpv6 => some 32
  | ipv6 | ipv6LinkLocal => some 128

end AddressEncoding

end BabelRs
