import BabelRs.Lib.Saturating
import Mathlib.Data.List.Lex

/-!
# Canonical routing keys, identities, distances and selected routes

Models `model.rs`, with the address and prefix types it takes from the standard
library and from `ipnet`.  An address is its big-endian bit string, so numeric
order is the octet order of the Rust types; a prefix carries its length bound in
its type.
-/

set_option autoImplicit false

namespace BabelRs

/-- Babel unreachable metric and saturation value. -/
def INFINITY : UInt16 := 0xffff

/-! ## Addresses and prefixes -/

inductive IpAddr where
  | v4 (address : BitVec 32)
  | v6 (address : BitVec 128)
deriving DecidableEq, Repr

namespace IpAddr

def isIpv4 : IpAddr → Bool
  | v4 _ => true
  | v6 _ => false

def isIpv6 (address : IpAddr) : Bool := !address.isIpv4

/-- Every IPv4 address precedes every IPv6 address. -/
def code : IpAddr → Nat
  | v4 address => address.toNat
  | v6 address => 2 ^ 32 + address.toNat

theorem code_injective {first second : IpAddr} (same : first.code = second.code) :
    first = second := by
  cases first <;> cases second <;> simp only [code] at same <;>
    first | exact congrArg _ (BitVec.eq_of_toNat_eq (by omega)) | omega

end IpAddr

instance neZeroLengths : NeZero 129 := ⟨by decide⟩

instance neZeroLengths4 : NeZero 33 := ⟨by decide⟩

/-- `IpNet` of the `ipnet` crate; host bits need not be zero. -/
inductive IpNet where
  | v4 (address : BitVec 32) (prefixLen : Fin 33)
  | v6 (address : BitVec 128) (prefixLen : Fin 129)
deriving DecidableEq, Repr

namespace IpNet

def isIpv4 : IpNet → Bool
  | v4 _ _ => true
  | v6 _ _ => false

def prefixLen : IpNet → Nat
  | v4 _ len => len.val
  | v6 _ len => len.val

def trunc : IpNet → IpNet
  | v4 address len => v4 (address &&& (BitVec.allOnes 32 <<< (32 - len.val))) len
  | v6 address len => v6 (address &&& (BitVec.allOnes 128 <<< (128 - len.val))) len

/-- The derived order: family, then address, then prefix length. -/
def code : IpNet → Nat
  | v4 address len => address.toNat * 64 + len.val
  | v6 address len => 2 ^ 40 + address.toNat * 256 + len.val

theorem code_lt (net : IpNet) : net.code < 2 ^ 137 := by
  cases net with
  | v4 address len =>
    simp only [code]
    omega
  | v6 address len =>
    simp only [code]
    omega

theorem code_injective {first second : IpNet} (same : first.code = second.code) :
    first = second := by
  cases first with
  | v4 address len =>
    cases second with
    | v4 other otherLen =>
      simp only [code] at same
      have addressEq : address = other := BitVec.eq_of_toNat_eq (by omega)
      have lenEq : len = otherLen := Fin.ext (by omega)
      rw [addressEq, lenEq]
    | v6 other otherLen =>
      simp only [code] at same
      omega
  | v6 address len =>
    cases second with
    | v4 other otherLen =>
      simp only [code] at same
      omega
    | v6 other otherLen =>
      simp only [code] at same
      have addressEq : address = other := BitVec.eq_of_toNat_eq (by omega)
      have lenEq : len = otherLen := Fin.ext (by omega)
      rw [addressEq, lenEq]

end IpNet

/-! ## Identities -/

/-- An eight-octet origin identity, excluding all-zero and all-one values. -/
structure RouterId where
  octets : BitVec 64
  notZero : octets ≠ 0
  notOnes : octets ≠ BitVec.allOnes 64
deriving DecidableEq

def RouterId.new (value : BitVec 64) : Option RouterId :=
  if reserved : value = 0 ∨ value = BitVec.allOnes 64 then none
  else some ⟨value, fun zero => reserved (Or.inl zero), fun ones => reserved (Or.inr ones)⟩

/-- A Rust `String` naming an interface, as its UTF-8 octets: the engine only
compares names and hashes their octets. -/
structure InterfaceName where
  octets : List UInt8
deriving DecidableEq, Repr

namespace InterfaceName

def code (name : InterfaceName) : List Nat := name.octets.map UInt8.toNat

theorem code_injective : Function.Injective code := by
  intro first second same
  have octetsEq : first.octets = second.octets :=
    List.map_injective_iff.mpr (fun _ _ equal => UInt8.toNat_inj.mp equal) same
  cases first
  cases second
  simpa using octetsEq

instance : LinearOrder InterfaceName := LinearOrder.lift' code code_injective

end InterfaceName

/-! ## Route keys -/

/-- A destination and optional source prefix of the same address family. -/
structure RouteKey where
  destination : IpNet
  source : Option IpNet
deriving DecidableEq, Repr

namespace RouteKey

/-- Normalize both prefixes; `none` if their address families differ.  A
zero-length source is represented by its absence. -/
def new (destination : IpNet) (source : Option IpNet) : Option RouteKey :=
  if source.any fun value => value.isIpv4 != destination.isIpv4 then none
  else some
    { destination := destination.trunc
      source := (source.filter fun value => value.prefixLen != 0).map IpNet.trunc }

def sourceCode : Option IpNet → Nat
  | none => 0
  | some net => net.code + 1

/-- The derived order: destination, then source with an absent one first. -/
def code (key : RouteKey) : Nat := key.destination.code * 2 ^ 138 + sourceCode key.source

theorem sourceCode_lt (source : Option IpNet) : sourceCode source < 2 ^ 138 := by
  cases source with
  | none => simp [sourceCode]
  | some net =>
    have bound := net.code_lt
    simp only [sourceCode]
    omega

theorem sourceCode_injective {first second : Option IpNet}
    (same : sourceCode first = sourceCode second) : first = second := by
  cases first <;> cases second <;> simp only [sourceCode] at same
  · rfl
  · omega
  · omega
  · rw [IpNet.code_injective (Nat.add_right_cancel same)]

theorem code_injective : Function.Injective code := by
  intro first second same
  have firstBound := sourceCode_lt first.source
  have secondBound := sourceCode_lt second.source
  simp only [code] at same
  have destinationEq : first.destination = second.destination :=
    IpNet.code_injective (by omega)
  have sourceEq : first.source = second.source := sourceCode_injective (by omega)
  cases first
  cases second
  simp_all

instance : LinearOrder RouteKey := LinearOrder.lift' code code_injective

end RouteKey

/-! ## Distances -/

/-- RFC 8966 sequence-number comparison modulo 2^16.  Values exactly half a
sequence space apart are deliberately incomparable. -/
def seqnoGt (a b : UInt16) : Bool :=
  let delta := a - b
  delta != 0 && delta < 0x8000

/-- Advertised sequence number and metric used for feasibility comparison. -/
structure Distance where
  seqno : UInt16
  metric : UInt16
deriving DecidableEq, Repr

/-- Whether this advertisement is strictly feasible against recorded history. -/
def Distance.feasibleAgainst (self feasible : Distance) : Bool :=
  seqnoGt self.seqno feasible.seqno ||
    (self.seqno == feasible.seqno && self.metric < feasible.metric)

/-- Selected learned route, including an independent next-hop address family. -/
structure SelectedRoute where
  key : RouteKey
  routerId : RouterId
  seqno : UInt16
  metric : UInt16
  nextHop : IpAddr
  interface : InterfaceName
deriving DecidableEq

end BabelRs
