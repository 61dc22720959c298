import BabelRs.Lib.Bytes
import BabelRs.Lib.Checked
import BabelRs.Lib.Framing
import BabelRs.Wire.Types

/-!
# Addresses and prefixes on the wire

Models `wire/prefix.rs`.  The writers append whole frames, so what they put out is a
list of `Frame`s; the readers run on octets and keep their index checks.
-/

set_option autoImplicit false

namespace BabelRs

open Lib Lib.Checked

/-! ## Octets -/

namespace IpAddr

def octets : IpAddr → List UInt8
  | v4 address => toBe 4 address.toNat
  | v6 address => toBe 16 address.toNat

/-- `Ipv6Addr::is_unicast_link_local`: fe80::/10. -/
def isUnicastLinkLocal : IpAddr → Bool
  | v4 _ => false
  | v6 address => address >>> 118 = 0x3fa

end IpAddr

namespace IpNet

def addr : IpNet → IpAddr
  | v4 address _ => .v4 address
  | v6 address _ => .v6 address

/-- `Ipv4Net::new` and `Ipv6Net::new`. -/
def newV4 (address : BitVec 32) (prefixLen : Nat) : Option IpNet :=
  if valid : prefixLen < 33 then some (v4 address ⟨prefixLen, valid⟩) else none

def newV6 (address : BitVec 128) (prefixLen : Nat) : Option IpNet :=
  if valid : prefixLen < 129 then some (v6 address ⟨prefixLen, valid⟩) else none

end IpNet

def ipv4OfOctets (raw : List UInt8) : BitVec 32 := BitVec.ofNat 32 (ofBe raw)

def ipv6OfOctets (raw : List UInt8) : BitVec 128 := BitVec.ofNat 128 (ofBe raw)

def RouterId.toOctets (id : RouterId) : List UInt8 := toBe 8 id.octets.toNat

def RouterId.ofOctets (raw : List UInt8) : Option RouterId :=
  RouterId.new (BitVec.ofNat 64 (ofBe raw))

namespace Wire

/-! ## Writing -/

def requireNonzero (value : UInt16) (type : UInt8) : Except WireError Unit :=
  if value = 0 then .error (.invalidTlv type) else .ok ()

def requireZeroes (value : List UInt8) (type : UInt8) : Except WireError Unit :=
  if value.any fun byte => byte ≠ 0 then .error (.invalidTlv type) else .ok ()

def putTlv (type : UInt8) (value : List UInt8) : Except WireError Frame :=
  if 255 < value.length then .error .bodyTooLarge else .ok (.tlv type value)

def be16Bytes (value : UInt16) : List UInt8 := toBe 2 value.toNat

def be32Bytes (value : UInt32) : List UInt8 := toBe 4 value.toNat

def encodeAddress (address : IpAddr) : AddressEncoding × List UInt8 :=
  match address with
  | .v4 _ => (.ipv4, address.octets)
  | .v6 _ =>
    if address.isUnicastLinkLocal then (.ipv6LinkLocal, address.octets.drop 8)
    else (.ipv6, address.octets)

def encodeOptionalAddress (address : Option IpAddr) : AddressEncoding × List UInt8 :=
  (address.map encodeAddress).getD (.wildcard, [])

def aeForKey (key : RouteKey) (v4ViaV6 : Bool) : AddressEncoding :=
  if key.destination.isIpv4 then
    if v4ViaV6 then .ipv4ViaIpv6 else .ipv4
  else .ipv6

/-! ## Both ways -/

def prefixEncodedLen (ae : AddressEncoding) (plen : Nat) : Option Nat := do
  if (← ae.maxPrefixBits) < plen then none
  else
    let octets := (plen + 7) / 8
    match ae with
    | .ipv6LinkLocal => if 64 ≤ plen then some (octets - 8) else none
    | .wildcard => if plen = 0 then some 0 else none
    | _ => some octets

def prefixWireBytes (net : IpNet) (ae : AddressEncoding) : List UInt8 :=
  let size := (prefixEncodedLen ae net.prefixLen).getD 0
  match net, ae with
  | .v4 _ _, _ => net.addr.octets.take size
  | .v6 _ _, .ipv6LinkLocal => (net.addr.octets.drop 8).take size
  | .v6 _ _, _ => net.addr.octets.take size

/-! ## Reading -/

def be16 (data : List UInt8) : Checked WireError UInt16 := do
  return UInt16.ofNat (ofBe [← index data 0, ← index data 1])

def be32 (data : List UInt8) : Checked WireError UInt32 := do
  return UInt32.ofNat (ofBe [← index data 0, ← index data 1, ← index data 2, ← index data 3])

/-- The eight octets in front of a link-local interface identifier. -/
def linkLocalPrefix : List UInt8 := [0xfe, 0x80, 0, 0, 0, 0, 0, 0]

def decodeAddress (ae : AddressEncoding) (data : List UInt8) : Checked WireError (Option IpAddr) :=
  match ae with
  | .ipv4 => .ok (if data.length = 4 then some (.v4 (ipv4OfOctets data)) else none)
  | .ipv6 => .ok (if data.length = 16 then some (.v6 (ipv6OfOctets data)) else none)
  | .ipv6LinkLocal =>
    if data.length = 8 then .ok (some (.v6 (ipv6OfOctets (linkLocalPrefix ++ data)))) else panics
  | _ => .ok none

/-- Clear the bits of the last octet that lie behind the prefix. -/
def maskLast (plen : Nat) (encoded : List UInt8) : List UInt8 :=
  if plen % 8 ≠ 0 then
    match encoded.getLast? with
    | some last => encoded.dropLast ++ [last &&& (0xff <<< UInt8.ofNat (8 - plen % 8))]
    | none => encoded
  else encoded

/-- The octets that an Update leaves out, from the prefix before it. -/
def reusedOctets (omitted : Nat) (previous : Option (List UInt8)) : Option (List UInt8) :=
  if omitted = 0 then some []
  else previous.bind fun bytes => if omitted ≤ bytes.length then some (bytes.take omitted) else none

/-- The last eight octets of the address, zero-extended on the left. -/
def routerIdFromPrefix (net : IpNet) : List UInt8 :=
  let bytes := net.addr.octets
  let count := min bytes.length 8
  List.replicate (8 - count) 0 ++ bytes.drop (bytes.length - count)

/-! ### With the subtractions, shifts and slices of the source -/

namespace Raw

def prefixEncodedLen (ae : AddressEncoding) (plen : Nat) : Checked WireError (Option Nat) :=
  match ae.maxPrefixBits with
  | none => .ok none
  | some bits =>
    if bits < plen then .ok none
    else
      let octets := (plen + 7) / 8
      match ae with
      | .ipv6LinkLocal => if 64 ≤ plen then do return some (← sub octets 8) else .ok none
      | .wildcard => .ok (if plen = 0 then some 0 else none)
      | _ => .ok (some octets)

def prefixWireBytes (net : IpNet) (ae : AddressEncoding) : Checked WireError (List UInt8) := do
  let size := (← prefixEncodedLen ae net.prefixLen).getD 0
  match net, ae with
  | .v4 _ _, _ => slice net.addr.octets 0 size
  | .v6 _ _, .ipv6LinkLocal => slice net.addr.octets 8 (8 + size)
  | .v6 _ _, _ => slice net.addr.octets 0 size

def maskLast (plen : Nat) (encoded : List UInt8) : Checked WireError (List UInt8) :=
  match encoded.getLast? with
  | some last =>
    if plen % 8 ≠ 0 then do
      let mask ← shiftLeft 0xff (← sub 8 (plen % 8))
      return encoded.dropLast ++ [last &&& mask]
    else .ok encoded
  | none => .ok encoded

/-- Copy the octets an Update leaves out to the front of the buffer. -/
def reuseOctets (encoded : List UInt8) (omitted : Nat) (previous : Option (List UInt8)) :
    Checked WireError (Option (List UInt8)) :=
  if 0 < omitted then
    match previous.bind fun bytes =>
        if omitted ≤ bytes.length then some (bytes.take omitted) else none with
    | none => .ok none
    | some reused => do return some (← copyFromSlice encoded 0 omitted reused)
  else .ok (some encoded)

def routerIdFromPrefix (net : IpNet) : Checked WireError (List UInt8) := do
  let bytes := net.addr.octets
  let count := min bytes.length 8
  copyFromSlice (List.replicate 8 0) (← sub 8 count) 8 (← sliceFrom bytes (← sub bytes.length count))

end Raw

def decodePrefix (ae : AddressEncoding) (plen omitted : Nat) (suffix : List UInt8)
    (previous : Option (List UInt8)) : Checked WireError (Option IpNet) := do
  match ← Raw.prefixEncodedLen ae plen with
  | none => return none
  | some encodedLen =>
    if encodedLen < omitted then return none
    else do
      let kept ← sub encodedLen omitted
      if suffix.length < kept then return none
      else do
        match ← Raw.reuseOctets (List.replicate encodedLen 0) omitted previous with
        | none => return none
        | some encoded =>
          let encoded ← copyFromSlice encoded omitted encodedLen (← slice suffix 0 kept)
          let encoded ← Raw.maskLast plen encoded
          match ae with
          | .ipv4 | .ipv4ViaIpv6 => return IpNet.newV4 (ipv4OfOctets (← fill 4 encoded)) plen
          | .ipv6 => return IpNet.newV6 (ipv6OfOctets (← fill 16 encoded)) plen
          | .ipv6LinkLocal =>
            return IpNet.newV6 (ipv6OfOctets (linkLocalPrefix ++ (← fill 8 encoded))) plen
          | .wildcard => return none

end Wire

end BabelRs
