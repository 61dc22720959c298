import BabelRs.Engine.State

/-!
# Periodic deadlines and RTT probe scheduling

The free functions of `engine/timers.rs`.  The probe jitter hashes the printed
neighbour address, so the standard library's address formatting is spelled out.
-/

set_option autoImplicit false

namespace BabelRs

open Lib

/-! ## Address formatting -/

def asciiText (characters : List Char) : List UInt8 :=
  characters.map fun character => UInt8.ofNat character.toNat

def decimalText (value : Nat) : List UInt8 := asciiText (Nat.toDigits 10 value)

def hexText (value : Nat) : List UInt8 := asciiText (Nat.toDigits 16 value)

def joinText (separator : UInt8) : List (List UInt8) → List UInt8
  | [] => []
  | [last] => last
  | first :: rest => first ++ separator :: joinText separator rest

def ipv4Text (address : BitVec 32) : List UInt8 :=
  joinText 46 ([24, 16, 8, 0].map fun shift => decimalText ((address >>> shift).toNat % 256))

def ipv6Segments (address : BitVec 128) : List Nat :=
  [112, 96, 80, 64, 48, 32, 16, 0].map fun shift => (address >>> shift).toNat % 65536

/-- Start and length of the first longest run of zero segments. -/
def longestZeroRun (segments : List Nat) : Nat × Nat :=
  let scanned := segments.zipIdx.foldl
    (fun (state : (Nat × Nat) × (Nat × Nat)) segment =>
      if segment.1 = 0 then
        let current := if state.2.2 = 0 then (segment.2, 1) else (state.2.1, state.2.2 + 1)
        (if current.2 > state.1.2 then current else state.1, current)
      else (state.1, (0, 0)))
    ((0, 0), (0, 0))
  scanned.1

def ipv6Text (address : BitVec 128) : List UInt8 :=
  let segments := ipv6Segments address
  let text := fun part : List Nat => joinText 58 (part.map hexText)
  if address >>> 32 = 0xffff then
    [58, 58] ++ hexText 0xffff ++ 58 :: ipv4Text (address.setWidth 32)
  else
    let run := longestZeroRun segments
    if run.2 > 1 then text (segments.take run.1) ++ [58, 58] ++ text (segments.drop (run.1 + run.2))
    else text segments

def addressText : IpAddr → List UInt8
  | .v4 address => ipv4Text address
  | .v6 address => ipv6Text address

/-! ## Deadlines -/

def periodicWindowOpen (now deadline : UInt64) : Bool := satAdd now maxTriggeredJitterMs ≥ deadline

def nextPeriodicDeadline (deadline now : UInt64) (intervalCs : UInt16) : UInt64 :=
  let intervalMs := satMul intervalCs.toUInt64 10
  let anchored := satAdd deadline intervalMs
  if anchored > now then anchored else satAdd now intervalMs

def timestampUs (now : UInt64) : UInt32 := (now * 1000).toUInt32

/-- Stable FNV-1a over interface, printed address and sequence number. -/
def probeSalt (key : NeighborKey) (seqno : UInt16) : UInt64 :=
  (key.interface.octets ++ addressText key.address ++ [(seqno >>> 8).toUInt8, seqno.toUInt8]).foldl
    (fun value byte => (value ^^^ byte.toUInt64) * 0x100000001b3) 0xcbf29ce484222325

def initialProbeDeadline (now intervalMs : UInt64) (key : NeighborKey) : UInt64 :=
  let spread := min (max intervalMs 1) 200
  satAdd now (probeSalt key 0 % spread)

def recurringProbeDeadline (now intervalMs : UInt64) (key : NeighborKey) (seqno : UInt16) :
    UInt64 :=
  let spread := max (intervalMs / 5) 1
  satAdd now (satAdd (satMul intervalMs 9 / 10) (probeSalt key seqno % spread))

def advanceHelloTimer (now : UInt64) (timer : Option HelloTimer) (history : HelloHistory) :
    Option HelloTimer × HelloHistory :=
  match timer with
  | none => (none, history)
  | some value =>
    if now < value.nextExpiryMs then (some value, history)
    else
      let intervalMs := max (satMul value.intervalCs.toUInt64 10) 1
      let missed := 1 + satSub now value.nextExpiryMs / intervalMs
      (some { value with nextExpiryMs := satAdd value.nextExpiryMs (satMul missed intervalMs) },
        history.missedMany missed)

end BabelRs
