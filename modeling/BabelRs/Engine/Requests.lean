import BabelRs.Engine.Rib

/-!
# Received sequence-number requests

`handle_seqno_request` of `engine/sources.rs`.
-/

set_option autoImplicit false

namespace BabelRs

open Lib Lib.Effect

namespace Engine

variable {P M : Type}

/-- `min_by_key` of the forwarding choice: feasible first, then metric, then seqno. -/
def forwardingRank (engine : Engine P M) (candidate : Candidate) : Nat × Nat × Nat :=
  (if engine.candidateIsFeasible candidate then 0 else 1, candidate.metric.toNat,
    candidate.seqno.toNat)

def rankBelow (first second : Nat × Nat × Nat) : Bool :=
  decide (first.1 < second.1) ||
    (first.1 == second.1 && (decide (first.2.1 < second.2.1) ||
      (first.2.1 == second.2.1 && decide (first.2.2 < second.2.2))))

/-- The neighbour a request is forwarded to: never the requester itself. -/
def forwardingTarget (order : HashOrder) (engine : Engine P M) (requester : NeighborKey)
    (key : RouteKey) (routerId : RouterId) : Option NeighborKey :=
  match (order.iter engine.candidates.entries).filter fun entry =>
      decide (entry.1.1 = key) && entry.2.routerId == routerId && entry.1.2 != requester with
  | [] => none
  | first :: rest =>
    some (rest.foldl
      (fun least next =>
        if rankBelow (engine.forwardingRank next.2) (engine.forwardingRank least.2) then next
        else least) first).1.2

/-- Answer for a locally originated key: at most one increment per request, then
the new number on every interface. -/
def answerOwnRequest (key : RouteKey) (seqno : UInt16) (origin : Originated) (now : UInt64) :
    Effect (Engine P M) Action :=
  andThen
    (when (fun _ => seqnoGt seqno origin.seqno)
      (andThen (Effect.update bumpSequenceNumber)
        (emit fun engine => [.sequenceNumberChanged engine.sequenceNumber])))
    (sendUpdates now (some key) none (some (SendTiming.urgent now)))

def requestSuppressed (engine : Engine P M) (key : RouteKey) (routerId : RouterId)
    (seqno : UInt16) (now : UInt64) : Bool :=
  ((engine.pendingSeqno.get? (key, routerId)).any fun pending =>
      pending.seqno == seqno || seqnoGt pending.seqno seqno) ||
    ((engine.recentSeqno.get? (key, routerId)).any fun recent =>
      decide (recent.2 ≥ now) && (recent.1 == seqno || seqnoGt recent.1 seqno))

def forwardRequest (order : HashOrder) (requester : NeighborKey) (key : RouteKey)
    (seqno : UInt16) (hopCount : UInt8) (routerId : RouterId) (now : UInt64) :
    Effect (Engine P M) Action := fun engine =>
  if hopCount ≤ 1 then (engine, [])
  else if engine.requestSuppressed key routerId seqno now then (engine, [])
  else
    match engine.forwardingTarget order requester key routerId with
    | none => (engine, [])
    | some nextHop =>
      originateSeqnoRequest
        { key := key
          routerId := routerId
          seqno := seqno
          hopCount := hopCount - 1
          nextHop := nextHop
          requester := some requester } now engine

def answersRequest (route : SelectedRoute) (routerId : RouterId) (seqno : UInt16) : Bool :=
  route.routerId != routerId || route.seqno == seqno || seqnoGt route.seqno seqno

def handleSeqnoRequest (order : HashOrder) (requester : NeighborKey) (key : RouteKey)
    (seqno : UInt16) (hopCount : UInt8) (routerId : RouterId) (now : UInt64) :
    Effect (Engine P M) Action := fun engine =>
  if engine.originated.containsKey key && routerId != engine.config.routerId then
    replyToRouteRequest key requester now engine
  else
    match (engine.selected.get? key).filter fun route => answersRequest route routerId seqno with
    | some route =>
      updateActionToCandidate route.key route.routerId route.seqno route.metric requester now
        engine
    | none =>
      match (engine.originated.get? key).filter fun _ => routerId == engine.config.routerId with
      | some origin => answerOwnRequest key seqno origin now engine
      | none => forwardRequest order requester key seqno hopCount routerId now engine

end Engine

end BabelRs
