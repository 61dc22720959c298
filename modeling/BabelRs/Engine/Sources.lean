import BabelRs.Engine.State

/-!
# Source feasibility history and outgoing sequence-number requests

The table operations of `engine/sources.rs`; `handle_seqno_request`, which needs
route output, follows in `Engine.Requests`.
-/

set_option autoImplicit false

namespace BabelRs

open Lib

abbrev SourceTable := AssocMap (RouteKey × RouterId) SourceEntry

/-- `maintain_source` on the bare table: keep the better distance, refresh the
garbage-collection deadline. -/
def SourceTable.maintain (table : SourceTable) (key : RouteKey) (routerId : RouterId)
    (distance : Distance) (now : UInt64) : SourceTable :=
  let expires := satAdd now sourceGcTimeMs
  let source := (table.get? (key, routerId)).getD ⟨distance, expires⟩
  let kept :=
    if seqnoGt distance.seqno source.distance.seqno ||
        (distance.seqno == source.distance.seqno && distance.metric < source.distance.metric) then
      distance
    else source.distance
  table.insert (key, routerId) ⟨kept, expires⟩

structure SeqnoRequestSpec where
  key : RouteKey
  routerId : RouterId
  seqno : UInt16
  hopCount : UInt8
  nextHop : NeighborKey
  requester : Option NeighborKey

def seqnoRequestAction (key : RouteKey) (routerId : RouterId) (seqno : UInt16) (hopCount : UInt8)
    (nextHop : NeighborKey) (now : UInt64) : Action :=
  .send nextHop.interface nextHop.address ⟨[.seqnoRequest key seqno hopCount routerId []]⟩
    (SendTiming.urgent now)

namespace Engine

variable {P M : Type}

def maintainSource (key : RouteKey) (routerId : RouterId) (distance : Distance) (now : UInt64)
    (engine : Engine P M) : Engine P M :=
  { engine with feasible := SourceTable.maintain engine.feasible key routerId distance now }

def bumpSequenceNumber (engine : Engine P M) : Engine P M :=
  let sequenceNumber := engine.sequenceNumber + 1
  { engine with
    sequenceNumber := sequenceNumber
    originated := engine.originated.mapValues fun _ origin => { origin with seqno := sequenceNumber } }

def originateSeqnoRequest (request : SeqnoRequestSpec) (now : UInt64) :
    Effect (Engine P M) Action := fun engine =>
  ({ engine with
      pendingSeqno := engine.pendingSeqno.insert (request.key, request.routerId)
        { seqno := request.seqno
          hopCount := request.hopCount
          nextHop := request.nextHop
          requester := request.requester
          retriesLeft := requestRetries
          nextRetryMs := satAdd now requestRetryInitialMs } },
    [seqnoRequestAction request.key request.routerId request.seqno request.hopCount
      request.nextHop now])

end Engine

end BabelRs
