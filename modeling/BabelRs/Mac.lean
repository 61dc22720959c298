import BabelRs.Lib.AssocMap
import BabelRs.Lib.Bytes
import BabelRs.Lib.Framing
import BabelRs.Model

/-!
# Packet authentication

Models `mac.rs`.  The keyed digest is a parameter, so nothing is assumed about it.
The host's random source is the outcome of the one draw a call may make: `sign` and
`receive` draw at most once each.  A failed call keeps the state changes it had made.
-/

set_option autoImplicit false

namespace BabelRs

open Lib

namespace Mac

def MAC : UInt8 := 16
def PC : UInt8 := 17
def REQUEST : UInt8 := 18
def REPLY : UInt8 := 19
def RATE_MS : UInt64 := 300
def CHALLENGE_MS : UInt64 := 30000
def EXPIRE_MS : UInt64 := 300000

end Mac

inductive MacAlgorithm where
  | hmacSha256
  | blake2s128
deriving DecidableEq, Repr

inductive MacError where
  | keyLength
  | keyCount
  | packet
  | entropy
deriving DecidableEq, Repr

/-- A shared secret, of a length its algorithm takes. -/
structure MacKey where
  algorithm : MacAlgorithm
  bytes : List UInt8
  nonempty : bytes ≠ []
  bounded : bytes.length ≤ 4096
  keyed : algorithm = .blake2s128 → bytes.length ≤ 32
deriving DecidableEq

def MacKey.new (algorithm : MacAlgorithm) (bytes : List UInt8) : Except MacError MacKey :=
  if valid : bytes ≠ [] ∧ bytes.length ≤ 4096 ∧
      (algorithm = .blake2s128 → bytes.length ≤ 32) then
    .ok ⟨algorithm, bytes, valid.1, valid.2.1, valid.2.2⟩
  else .error .keyLength

/-- Interface keys, one to eight of them. -/
structure MacConfig where
  keys : List MacKey
  acceptUnverified : Bool
  nonempty : keys ≠ []
  bounded : keys.length ≤ 8
deriving DecidableEq

namespace MacConfig

def new (keys : List MacKey) : Except MacError MacConfig :=
  if valid : keys ≠ [] ∧ keys.length ≤ 8 then .ok ⟨keys, false, valid.1, valid.2⟩
  else .error .keyCount

def isStrict (config : MacConfig) : Bool := !config.acceptUnverified

def overhead (config : MacConfig) : Nat :=
  22 + (config.keys.map fun key =>
    match key.algorithm with
    | .hmacSha256 => 34
    | .blake2s128 => 18).sum

end MacConfig

/-! ## Endpoints -/

inductive SocketAddr where
  | v4 (ip : BitVec 32) (port : UInt16)
  | v6 (ip : BitVec 128) (port : UInt16) (flowinfo scopeId : UInt32)
deriving DecidableEq, Repr

namespace SocketAddr

def ip : SocketAddr → IpAddr
  | v4 ip _ => .v4 ip
  | v6 ip _ _ _ => .v6 ip

def port : SocketAddr → UInt16
  | v4 _ port => port
  | v6 _ port _ _ => port

end SocketAddr

/-- `IpAddr::is_multicast`: 224.0.0.0/4 and ff00::/8. -/
def IpAddr.isMulticast : IpAddr → Bool
  | .v4 address => decide (address.toNat / 2 ^ 28 = 0xe)
  | .v6 address => decide (address.toNat / 2 ^ 120 = 0xff)

structure DatagramEndpoints where
  source : SocketAddr
  destination : SocketAddr
deriving DecidableEq, Repr

namespace DatagramEndpoints

def multicast (endpoints : DatagramEndpoints) : Bool := endpoints.destination.ip.isMulticast

/-- Both addresses must be of one family. -/
def authenticatedBytes (endpoints : DatagramEndpoints) (packet : List UInt8) :
    Except MacError (List UInt8) :=
  match endpoints.source.ip, endpoints.destination.ip with
  | .v4 source, .v4 destination =>
    .ok (toBe 4 source.toNat ++ toBe 2 endpoints.source.port.toNat ++ toBe 4 destination.toNat
      ++ toBe 2 endpoints.destination.port.toNat ++ packet)
  | .v6 source, .v6 destination =>
    .ok (toBe 16 source.toNat ++ toBe 2 endpoints.source.port.toNat ++ toBe 16 destination.toNat
      ++ toBe 2 endpoints.destination.port.toNat ++ packet)
  | _, _ => .error .packet

end DatagramEndpoints

/-! ## Framing -/

namespace Mac

def bodyEnd (packet : List UInt8) : Except MacError Nat :=
  match packet with
  | magic :: version :: high :: low :: rest =>
    if magic ≠ 42 ∨ version ≠ 2 then .error .packet
    else
      let length := ofBe [high, low]
      if rest.length < length then .error .packet else .ok (4 + length)
  | _ => .error .packet

def payload? : Frame → Option (UInt8 × List UInt8)
  | .pad1 => none
  | .tlv type value => some (type, value)

def tlvs (bytes : List UInt8) : Except MacError (List (UInt8 × List UInt8)) :=
  match (frames bytes).truncated with
  | none => .ok ((frames bytes).frames.filterMap payload?)
  | some _ => .error .packet

def control (type : UInt8) (nonce : List UInt8) : List UInt8 :=
  [42, 2] ++ toBe 2 (nonce.length + 2) ++ [type, UInt8.ofNat nonce.length] ++ nonce

end Mac

/-! ## Sessions -/

abbrev Nonce := { bytes : List UInt8 // bytes.length = 16 }

/-- The outcome of the draw a call may make. -/
abbrev Draw := Except MacError Nonce

structure MacPeer where
  index : Option (List UInt8)
  unicast : UInt32
  multicast : UInt32
  nonce : Option (Nonce × UInt64)
  lastReply : Option UInt64
  expires : UInt64

def MacPeer.met (now : UInt64) : MacPeer where
  index := none
  unicast := 0
  multicast := 0
  nonce := none
  lastReply := none
  expires := satAdd now Mac.EXPIRE_MS

def MacPeer.counter (peer : MacPeer) (multicast : Bool) : UInt32 :=
  if multicast then peer.multicast else peer.unicast

structure MacReception where
  accepted : Bool
  controls : List (List UInt8)
deriving DecidableEq, Repr

structure MacSession where
  config : MacConfig
  index : Nonce
  counter : UInt32
  peers : AssocMap SocketAddr MacPeer
  maxPeers : Nat
  lastChallenge : Option UInt64

namespace MacSession

open Mac

def new (config : MacConfig) (maxPeers : Nat) (draw : Draw) : Except MacError MacSession := do
  return {
    config
    index := ← draw
    counter := 0
    peers := .empty
    maxPeers
    lastChallenge := none
  }

/-- The index is renewed when the counter has run out. -/
def renewed (session : MacSession) (draw : Draw) : Except MacError MacSession :=
  if session.counter = 0xffffffff then
    match draw with
    | .ok index => .ok { session with index, counter := 0 }
    | .error error => .error error
  else .ok session

/-- The packet with this session's next PC appended and its body length rewritten. -/
def numbered (session : MacSession) (packet : List UInt8) : Except MacError (List UInt8) :=
  let out := packet ++ [PC, 20] ++ toBe 4 session.counter.toNat ++ session.index.val
  if 0xffff < out.length - 4 then .error .packet
  else .ok (out.take 2 ++ toBe 2 (out.length - 4) ++ out.drop 4)

variable (digest : MacKey → List UInt8 → List UInt8)

def trailer (session : MacSession) (data : List UInt8) : List UInt8 :=
  session.config.keys.flatMap fun key =>
    [MAC, UInt8.ofNat (digest key data).length] ++ digest key data

/-- A complete packet without authentication TLVs. -/
def signable (packet : List UInt8) : Except MacError Unit := do
  let stop ← bodyEnd packet
  if stop ≠ packet.length then throw .packet
  let body ← tlvs ((packet.take stop).drop 4)
  if body.any fun tlv => tlv.1 = PC || tlv.1 = MAC then throw .packet

def authenticate (session : MacSession) (packet : List UInt8) (endpoints : DatagramEndpoints) :
    Except MacError (List UInt8) := do
  let out ← session.numbered packet
  let data ← endpoints.authenticatedBytes out
  return out ++ session.trailer digest data

/-- The counter is spent even when authentication fails. -/
def sign (session : MacSession) (packet : List UInt8) (endpoints : DatagramEndpoints)
    (draw : Draw) : MacSession × Except MacError (List UInt8) :=
  match signable packet with
  | .error error => (session, .error error)
  | .ok () =>
    match session.renewed draw with
    | .error error => (session, .error error)
    | .ok session =>
      ({ session with counter := session.counter + 1 }, session.authenticate digest packet endpoints)

def expire (session : MacSession) (now : UInt64) : MacSession :=
  { session with peers := session.peers.retain fun _ peer => decide (now < peer.expires) }

def verified (session : MacSession) (packet : List UInt8) (stop : Nat)
    (endpoints : DatagramEndpoints) : Except MacError Bool := do
  let trailer ← tlvs (packet.drop stop)
  if trailer.any fun tlv => tlv.1 = MAC then
    let data ← endpoints.authenticatedBytes (packet.take stop)
    return session.config.keys.any fun key =>
      trailer.any fun tlv => tlv.1 = MAC && digest key data = tlv.2
  else return false

/-! ### What a body says -/

/-- The first PC of a length that holds a counter and an index of up to 32 octets. -/
def packetCounter (body : List (UInt8 × List UInt8)) : Option (UInt32 × List UInt8) :=
  body.findSome? fun tlv =>
    if tlv.1 = PC ∧ 4 ≤ tlv.2.length ∧ tlv.2.length ≤ 36 then
      some (UInt32.ofNat (ofBe (tlv.2.take 4)), tlv.2.drop 4)
    else none

/-- The last request; a multicast packet cannot ask. -/
def request (body : List (UInt8 × List UInt8)) (endpoints : DatagramEndpoints) :
    Option (List UInt8) :=
  (body.filterMap fun tlv =>
    if tlv.1 = REQUEST ∧ tlv.2.length ≤ 192 ∧ endpoints.multicast = false then some tlv.2
    else none).getLast?

def replies (body : List (UInt8 × List UInt8)) (nonce : List UInt8) : Bool :=
  body.any fun tlv => tlv.1 = REPLY && decide (tlv.2.length ≤ 192) && nonce = tlv.2

/-- Whether the body answers the challenge that is outstanding at `now`. -/
def success (body : List (UInt8 × List UInt8)) (peer : MacPeer) (now : UInt64) : Bool :=
  match peer.nonce with
  | some (nonce, expires) => decide (now < expires) && replies body nonce.val
  | none => false

/-! ### The decision -/

def elapsed (last : Option UInt64) (now : UInt64) : Bool :=
  match last with
  | none => true
  | some last => decide (RATE_MS ≤ satSub now last)

/-- Answer a request, at most once in `RATE_MS` for each peer. -/
def answer (body : List (UInt8 × List UInt8)) (endpoints : DatagramEndpoints) (now : UInt64)
    (peer : MacPeer) : MacPeer × List (List UInt8) :=
  match request body endpoints with
  | some nonce =>
    if elapsed peer.lastReply now then
      ({ peer with lastReply := some now }, [control REPLY nonce])
    else (peer, [])
  | none => (peer, [])

def putPeer (session : MacSession) (source : SocketAddr) (peer : MacPeer) : MacSession :=
  { session with peers := session.peers.insert source peer }

/-- The last part of `receive_inner`: index, counters and challenge of one peer.  `accepted` is
what the configuration grants without any check. -/
def decideOn (session : MacSession) (body : List (UInt8 × List UInt8))
    (endpoints : DatagramEndpoints) (now : UInt64) (draw : Draw) (peer : MacPeer)
    (controls : List (List UInt8)) : MacSession × Except MacError MacReception :=
  let source := endpoints.source
  let unchanged := session.putPeer source peer
  let result : MacReception := ⟨session.config.acceptUnverified, controls⟩
  match packetCounter body with
  | none => (unchanged, .ok result)
  | some (pc, index) =>
    if success body peer now then
      (session.putPeer source
        { peer with
          nonce := none, index := some index, unicast := pc, multicast := pc
          expires := satAdd now EXPIRE_MS },
        .ok { result with accepted := true })
    else if peer.index ≠ some index then
      if elapsed session.lastChallenge now then
        match draw with
        | .error error => (unchanged, .error error)
        | .ok nonce =>
          ({ session.putPeer source
              { peer with nonce := some (nonce, satAdd now CHALLENGE_MS) } with
            lastChallenge := some now },
            .ok { result with controls := controls ++ [control REQUEST nonce.val] })
      else (unchanged, .ok result)
    else if pc ≤ peer.counter endpoints.multicast then (unchanged, .ok result)
    else
      (session.putPeer source
        { peer with
          multicast := if endpoints.multicast then pc else peer.multicast
          unicast := if endpoints.multicast then peer.unicast else pc
          expires := satAdd now EXPIRE_MS },
        .ok { result with accepted := true })

/-- The part of `receive_inner` behind the MAC check. -/
def process (session : MacSession) (packet : List UInt8) (stop : Nat)
    (endpoints : DatagramEndpoints) (now : UInt64) (draw : Draw) :
    MacSession × Except MacError MacReception :=
  match tlvs ((packet.take stop).drop 4) with
  | .error error => (session, .error error)
  | .ok body =>
    match session.peers.get? endpoints.source with
    | none =>
      if session.maxPeers ≤ session.peers.len then
        (session, .ok ⟨session.config.acceptUnverified, []⟩)
      else
        let (peer, controls) := answer body endpoints now (.met now)
        session.decideOn body endpoints now draw peer controls
    | some peer =>
      let (peer, controls) := answer body endpoints now peer
      session.decideOn body endpoints now draw peer controls

def receiveInner (session : MacSession) (packet : List UInt8) (endpoints : DatagramEndpoints)
    (now : UInt64) (draw : Draw) : MacSession × Except MacError MacReception :=
  match bodyEnd packet with
  | .error error => (session, .error error)
  | .ok stop =>
    if session.config.acceptUnverified then session.process packet stop endpoints now draw
    else match session.verified digest packet stop endpoints with
      | .error error => (session, .error error)
      | .ok false => (session, .ok ⟨false, []⟩)
      | .ok true => session.process packet stop endpoints now draw

/-- An error becomes the default reception. -/
def receive (session : MacSession) (packet : List UInt8) (endpoints : DatagramEndpoints)
    (now : UInt64) (draw : Draw) : MacSession × MacReception :=
  match (session.expire now).receiveInner digest packet endpoints now draw with
  | (session, .ok reception) => (session, reception)
  | (session, .error _) => (session, ⟨false, []⟩)

end MacSession

end BabelRs
