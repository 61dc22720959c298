import BabelRs.Lib.OrdMap
import BabelRs.Metric
import BabelRs.Wire.Types

/-!
# Events, actions and configuration

Models `engine/api.rs`, `policy.rs`, `limits.rs` and `validation.rs`.  `P` is the
type of metric profiles; policies are pure functions, as their contract demands
of one policy version.
-/

set_option autoImplicit false

namespace BabelRs

open Lib

/-! ## Delivery constraints -/

def urgentTimeoutMs : UInt64 := 200
def maxTriggeredJitterMs : UInt64 := 100

structure SendTiming where
  deadlineMs : UInt64
  maxJitterMs : UInt64
deriving DecidableEq, Repr

namespace SendTiming

def urgent (now : UInt64) : SendTiming := ⟨satAdd now urgentTimeoutMs, urgentTimeoutMs⟩

def triggered (now : UInt64) (helloIntervalCs : UInt16) : SendTiming :=
  let deadlineDelta := satMul helloIntervalCs.toUInt64 5
  ⟨satAdd now deadlineDelta, min deadlineDelta maxTriggeredJitterMs⟩

def byDeadline (now deadline : UInt64) : SendTiming := ⟨deadline, satSub deadline now⟩

end SendTiming

/-! ## Configuration -/

/-- Hysteresis for switching an established route to a better feasible candidate. -/
structure RouteSelectionConfig where
  switchMarginPercent : UInt8
  switchMarginMetric : UInt16
  betterForMs : UInt64
deriving DecidableEq, Repr

def RouteSelectionConfig.default : RouteSelectionConfig := ⟨5, 8, 8000⟩

/-- Admission limits for learned protocol state. -/
structure ResourceLimits where
  maxNeighbors : Nat
  maxCandidates : Nat
  maxCandidatesPerNeighbor : Nat
deriving DecidableEq, Repr

def ResourceLimits.default : ResourceLimits := ⟨256, 16384, 4096⟩

/-- The cumulative rejection counters of `ResourceStatus`; its occupancy fields
are read off the tables when a status is requested. -/
structure Rejections where
  neighbors : UInt64
  candidatesGlobal : UInt64
  candidatesPerNeighbor : UInt64
deriving DecidableEq, Repr

/-- A finite received Update, after fixed protocol checks and before admission. -/
structure ImportContext where
  key : RouteKey
  interface : InterfaceName
  neighbor : IpAddr
  nextHop : IpAddr
  routerId : RouterId
  seqno : UInt16
  advertisedMetric : UInt16

/-- A finite announcement on an outgoing interface, including unicast replies. -/
structure ExportContext where
  key : RouteKey
  interface : InterfaceName
  routerId : RouterId
  locallyOriginated : Bool

structure RoutePolicy where
  accept : ImportContext → Bool
  announce : ExportContext → Bool

def allowAllRoutes : RoutePolicy := ⟨fun _ => true, fun _ => true⟩

structure EngineConfig (P : Type) where
  routePolicy : RoutePolicy
  ipv4ViaIpv6 : Bool
  limits : ResourceLimits
  routerId : RouterId
  metric : P
  metricAlgebra : MetricAlgebra
  sequenceNumber : UInt16
  helloIntervalCs : UInt16
  updateIntervalCs : UInt16
  routeSelection : RouteSelectionConfig

def EngineConfig.recommended (routerId : RouterId) : EngineConfig BuiltinProfile where
  ipv4ViaIpv6 := true
  routePolicy := allowAllRoutes
  routerId := routerId
  limits := ResourceLimits.default
  metric := .wired WiredMetric.default
  metricAlgebra := additiveMetric
  sequenceNumber := 0
  helloIntervalCs := 400
  updateIntervalCs := 1600
  routeSelection := RouteSelectionConfig.default

/-- Babel control-packet address family, selected independently per interface. -/
inductive ControlTransport where
  | ipv6
  | ipv4
deriving DecidableEq, Repr

def babelMulticastV6 : IpAddr := .v6 0xff020000000000000000000000010006

def ControlTransport.multicast : ControlTransport → IpAddr
  | ipv6 => babelMulticastV6
  | ipv4 => .v4 0xe000006f

/-- IPv4 announcement policy, independent of the Babel control transport. -/
inductive Ipv4NextHop where
  | auto
  | ipv4
  | ipv6
deriving DecidableEq, Repr

/-- Neither unspecified, loopback, multicast nor broadcast. -/
def usableIpv4 (address : BitVec 32) : Bool :=
  address != 0 && address >>> 24 != 127 && address >>> 28 != 14 && address != BitVec.allOnes 32

def minIpv4 : List (BitVec 32) → Option (BitVec 32)
  | [] => none
  | first :: rest => some (rest.foldl (fun best next => if next < best then next else best) first)

/-- The lowest usable IPv4 address; `none` means RFC 9229 for `auto` and `ipv6`,
or unavailable IPv4 advertisements for `ipv4`. -/
def Ipv4NextHop.ipv4Address (policy : Ipv4NextHop) (addresses : List IpAddr) :
    Option (BitVec 32) :=
  if policy = .ipv6 then none
  else
    minIpv4 (addresses.filterMap fun address =>
      match address with
      | .v4 value => if usableIpv4 value then some value else none
      | .v6 _ => none)

structure InterfacePolicy (P : Type) where
  controlTransport : ControlTransport
  ipv4NextHop : Ipv4NextHop
  metric : P
  helloIntervalCs : UInt16
  updateIntervalCs : UInt16
  splitHorizon : Bool

/-! ## Events and actions -/

/-- One atomic engine input. -/
inductive Event (P : Type) where
  | replaceRoutePolicy (policy : RoutePolicy) (now : UInt64)
  | interfaceUp (interface : InterfaceName) (localAddresses : List IpAddr) (now : UInt64)
  | interfaceUpWithPolicy (interface : InterfaceName) (localAddresses : List IpAddr)
      (policy : InterfacePolicy P) (now : UInt64)
  | interfacePolicyChanged (interface : InterfaceName) (policy : InterfacePolicy P)
      (resetMetric : Bool) (now : UInt64)
  | interfaceAddressesChanged (interface : InterfaceName) (localAddresses : List IpAddr)
      (now : UInt64)
  | interfaceDown (interface : InterfaceName) (now : UInt64)
  | packetReceived (interface : InterfaceName) (source : IpAddr) (packet : Packet) (now : UInt64)
  | packetReceivedWithTimestamp (interface : InterfaceName) (source : IpAddr) (packet : Packet)
      (now : UInt64) (receivedTimestampUs : UInt32)
  | originate (key : RouteKey) (metric : UInt16) (now : UInt64)
  | withdraw (key : RouteKey) (now : UInt64)
  | replaceOrigins (origins : OrdMap RouteKey UInt16) (now : UInt64)
  | tick (now : UInt64)

def Event.now {P : Type} : Event P → UInt64
  | replaceRoutePolicy _ now => now
  | interfaceUp _ _ now => now
  | interfaceUpWithPolicy _ _ _ now => now
  | interfacePolicyChanged _ _ _ now => now
  | interfaceAddressesChanged _ _ now => now
  | interfaceDown _ now => now
  | packetReceived _ _ _ now => now
  | packetReceivedWithTimestamp _ _ _ now _ => now
  | originate _ _ now => now
  | withdraw _ now => now
  | replaceOrigins _ now => now
  | tick now => now

/-- Ordered side effects for the host. -/
inductive Action where
  | invalidatePendingSends
  | send (interface : InterfaceName) (destination : IpAddr) (packet : OutboundPacket)
      (timing : SendTiming)
  | routesChanged (generation : UInt64) (routes : List SelectedRoute)
      (unreachable : List RouteKey)
  | sequenceNumberChanged (seqno : UInt16)
deriving DecidableEq

/-! ## Validation -/

inductive ConfigError where
  | switchMarginPercent
  | switchMarginMetric
  | zeroInterval (field : String)
  | invalidRouteKey
  | invalidOriginMetric
deriving DecidableEq, Repr

def validateIntervals (helloIntervalCs updateIntervalCs : UInt16) : Except ConfigError Unit :=
  if helloIntervalCs = 0 then .error (.zeroInterval "hello_interval_cs")
  else if updateIntervalCs = 0 then .error (.zeroInterval "update_interval_cs")
  else .ok ()

def RouteSelectionConfig.validate (config : RouteSelectionConfig) : Except ConfigError Unit :=
  if config.switchMarginPercent > 100 then .error .switchMarginPercent
  else if config.switchMarginMetric = INFINITY then .error .switchMarginMetric
  else .ok ()

def InterfacePolicy.validate {P : Type} (policy : InterfacePolicy P) : Except ConfigError Unit :=
  validateIntervals policy.helloIntervalCs policy.updateIntervalCs

def EngineConfig.validate {P : Type} (config : EngineConfig P) : Except ConfigError Unit := do
  config.routeSelection.validate
  validateIntervals config.helloIntervalCs config.updateIntervalCs

def RouteKey.validate (key : RouteKey) : Except ConfigError Unit :=
  if RouteKey.new key.destination key.source = some key then .ok () else .error .invalidRouteKey

def RouteKey.validateOrigin (key : RouteKey) (metric : UInt16) : Except ConfigError Unit := do
  key.validate
  if metric = INFINITY then .error .invalidOriginMetric else .ok ()

def validateOrigins : List (RouteKey × UInt16) → Except ConfigError Unit
  | [] => .ok ()
  | (key, metric) :: rest => do
    key.validateOrigin metric
    validateOrigins rest

def Event.validate {P : Type} : Event P → Except ConfigError Unit
  | interfaceUpWithPolicy _ _ policy _ => policy.validate
  | interfacePolicyChanged _ policy _ _ => policy.validate
  | originate key metric _ => key.validateOrigin metric
  | withdraw key _ => key.validate
  | replaceOrigins origins _ => validateOrigins origins.entries
  | _ => .ok ()

end BabelRs
