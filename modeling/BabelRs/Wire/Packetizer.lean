import BabelRs.Lib.Checked
import BabelRs.Wire.Encode

/-!
# Packetizing

Models `wire/packetizer.rs`: semantic TLVs become datagrams that each decode on their
own.  `T` stands for a TLV together with whatever its sender remembers of it, and `wire`
for the TLV itself; nothing here looks at anything else, so a datagram can say which
TLVs it was made from.
-/

set_option autoImplicit false

namespace BabelRs.Wire

open Lib

/-- A run of octets with the semantic TLVs it encodes. -/
structure Encoded (T : Type) where
  tlvs : List T
  bytes : List UInt8
deriving DecidableEq

namespace Encoded

variable {T U : Type}

def empty : Encoded T := ⟨[], []⟩

def map (f : T → U) (encoded : Encoded T) : Encoded U := ⟨encoded.tlvs.map f, encoded.bytes⟩

end Encoded

/-! ## Groups -/

def isHello : OutboundTlv → Bool
  | .hello .. => true
  | _ => false

def isIhu : OutboundTlv → Bool
  | .ihu .. => true
  | _ => false

def isTimestampHello : SubTlv → Bool
  | .timestampHello _ => true
  | _ => false

def isTimestampIhu : SubTlv → Bool
  | .timestampIhu .. => true
  | _ => false

def timestampedHello : OutboundTlv → Bool
  | .hello _ _ _ subTlvs => subTlvs.any isTimestampHello
  | _ => false

def timestampedIhu : OutboundTlv → Bool
  | .ihu _ _ _ subTlvs => subTlvs.any isTimestampIhu
  | _ => false

variable {T : Type} (wire : T → OutboundTlv)

/-- The IHUs that join the group before them, if that is open, and the groups after:
a timestamped Hello takes the IHUs that follow it, any other TLV stands alone. -/
def grouped : Bool → List T → List T × List (T × List T)
  | _, [] => ([], [])
  | opened, tlv :: rest =>
    if opened && isIhu (wire tlv) then
      let later := grouped true rest
      (tlv :: later.1, later.2)
    else
      let later := grouped (timestampedHello (wire tlv)) rest
      ([], (tlv, later.1) :: later.2)

/-- The TLVs of a group: the one that opens it and those that joined. -/
def groupTlvs {T : Type} (group : T × List T) : List T := group.1 :: group.2

def groups (tlvs : List T) : List (T × List T) := (grouped wire false tlvs).2

/-! ## Datagrams -/

/-- Whether an Update without a next hop would pick up one the context holds. -/
def requiresFreshNextHopContext (tlv : OutboundTlv) (context : EncodeContext) : Bool :=
  match tlv with
  | .update update =>
    if update.metric = INFINITY ∨ update.nextHop.isSome then false
    else if update.v4ViaV6 ∨ (update.key.any fun key => !key.destination.isIpv4) then
      context.nextHopV6.isSome
    else context.nextHopV4.isSome
  | _ => false

def finishPacket (body : Encoded T) : Except WireError (Encoded T) :=
  if 65535 < body.bytes.length then .error .bodyTooLarge
  else .ok ⟨body.tlvs, [MAGIC, VERSION] ++ toBe 2 body.bytes.length ++ body.bytes⟩

/-- The datagrams finished so far and the one being filled. -/
structure Packing (T : Type) where
  packets : List (Encoded T)
  body : Encoded T
  context : EncodeContext
  hasHello : Bool

namespace Packing

def start : Packing T := ⟨[], .empty, .default, false⟩

def flush (packing : Packing T) : Except WireError (Packing T) := do
  return ⟨packing.packets ++ [← finishPacket packing.body], .empty, .default, false⟩

/-- The octets of a group after a context, which must fit a datagram of their own. -/
def encodeGroup (bodyBudget : Nat) (context : EncodeContext) (group : List OutboundTlv) :
    Except WireError (List UInt8 × EncodeContext) := do
  let (out, context) ← group.foldlM
    (fun (out, context) tlv => do
      let (frames, context) ← encodeOutboundTlv tlv context
      return (out ++ frames, context)) (([] : List Frame), context)
  if bodyBudget < (frameBytes out).length then throw .bodyTooLarge
  return (frameBytes out, context)

def fill (packing : Packing T) (group : T × List T) (encoded : List UInt8 × EncodeContext) :
    Packing T where
  packets := packing.packets
  body := ⟨packing.body.tlvs ++ groupTlvs group, packing.body.bytes ++ encoded.1⟩
  context := encoded.2
  hasHello := packing.hasHello || isHello (wire group.1)

/-- Whether the open datagram cannot take the TLV whatever its size. -/
def mustBreak (packing : Packing T) (tlv : OutboundTlv) : Bool :=
  !packing.body.bytes.isEmpty
    && (requiresFreshNextHopContext tlv packing.context || (isHello tlv && packing.hasHello))

def overflows (packing : Packing T) (bodyBudget : Nat) (encoded : List UInt8) : Bool :=
  !packing.body.bytes.isEmpty && bodyBudget < packing.body.bytes.length + encoded.length

/-- Append a group, in a fresh datagram if the open one has no room left for it. -/
def place (bodyBudget : Nat) (packing : Packing T) (group : T × List T) :
    Except WireError (Packing T) := do
  let encoded ← encodeGroup bodyBudget packing.context ((groupTlvs group).map wire)
  if packing.overflows bodyBudget encoded.1 then do
    let fresh ← packing.flush
    let encoded ← encodeGroup bodyBudget fresh.context ((groupTlvs group).map wire)
    return fresh.fill wire group encoded
  else return packing.fill wire group encoded

def add (bodyBudget : Nat) (packing : Packing T) (group : T × List T) :
    Except WireError (Packing T) :=
  if timestampedIhu (wire group.1) then .error (.invalidTlv TLV_IHU)
  else if packing.mustBreak (wire group.1) then do
    let fresh ← packing.flush
    fresh.place wire bodyBudget group
  else packing.place wire bodyBudget group

end Packing

/-- The datagrams for a list of TLVs, each with the TLVs it carries. -/
def packetize (tlvs : List T) (maxPacketSize : Nat) : Except WireError (List (Encoded T)) := do
  if maxPacketSize < 4 then .error .packetBudgetTooSmall
  else
    let bodyBudget := min maxPacketSize MAX_PACKET_SIZE - 4
    let packing ← (groups wire tlvs).foldlM (Packing.add wire bodyBudget) Packing.start
    let last ← finishPacket packing.body
    return packing.packets ++ [last]

def encodePackets (packet : OutboundPacket) (maxPacketSize : Nat) :
    Except WireError (List (List UInt8)) :=
  (packetize id packet.tlvs maxPacketSize).map fun packets => packets.map Encoded.bytes

/-! ## Timestamps at send time -/

def stampSubTlv (timestamp : UInt32) : Frame → Frame
  | .tlv type value =>
    if type = SUBTLV_TIMESTAMP ∧ 4 ≤ value.length then
      .tlv type (be32Bytes timestamp ++ value.drop 4)
    else .tlv type value
  | .pad1 => .pad1

/-- The sub-TLVs of a Hello stand behind its first six octets. -/
def stampTlv (timestamp : UInt32) : Frame → Except WireError Frame
  | .tlv type value =>
    if type = TLV_HELLO ∧ 6 ≤ value.length then
      let subTlvs := frames (value.drop 6)
      match subTlvs.truncated with
      | some _ => .error (.invalidTlv TLV_HELLO)
      | none => .ok (.tlv type
          (value.take 6 ++ frameBytes (subTlvs.frames.map (stampSubTlv timestamp))))
    else .ok (.tlv type value)
  | .pad1 => .ok .pad1

/-- The datagram with its Hello timestamps rewritten. -/
def stampHelloTimestamps (data : List UInt8) (timestamp : UInt32) :
    Except WireError (List UInt8) :=
  match data with
  | magic :: version :: high :: low :: rest =>
    let bodyLen := ofBe [high, low]
    if magic ≠ MAGIC then .error .badMagic
    else if version ≠ VERSION then .error (.unsupportedVersion version)
    else if rest.length < bodyLen then .error .truncatedBody
    else do
      let body := frames (rest.take bodyLen)
      let stamped ← body.frames.mapM (stampTlv timestamp)
      match body.truncated with
      | some type => .error (.truncatedTlv type)
      | none =>
        return magic :: version :: high :: low :: (frameBytes stamped ++ rest.drop bodyLen)
  | _ => .error .shortHeader

/-! ## The TLVs of the datagrams -/

theorem grouped_tlvs (opened : Bool) (tlvs : List T) :
    (grouped wire opened tlvs).1
      ++ (grouped wire opened tlvs).2.flatMap groupTlvs = tlvs := by
  induction tlvs generalizing opened with
  | nil => rfl
  | cons tlv rest ih =>
    simp only [grouped]
    split
    · simpa using ih true
    · simpa [groupTlvs] using ih (timestampedHello (wire tlv))

theorem groups_tlvs (tlvs : List T) :
    (groups wire tlvs).flatMap groupTlvs = tlvs := by
  have joined : (grouped wire false tlvs).1 = [] := by
    cases tlvs with
    | nil => rfl
    | cons tlv rest => rfl
  simpa only [groups, joined, List.nil_append] using grouped_tlvs wire false tlvs

theorem finishPacket_ok {body done : Encoded T} (finished : finishPacket body = .ok done) :
    body.bytes.length ≤ 65535 ∧ done.tlvs = body.tlvs ∧
      done.bytes = [MAGIC, VERSION] ++ toBe 2 body.bytes.length ++ body.bytes := by
  rw [finishPacket] at finished
  split at finished
  · cases finished
  · next small =>
      cases finished
      exact ⟨Nat.le_of_not_lt small, rfl, rfl⟩

namespace Packing

variable {wire}

variable {packing next : Packing T}

theorem flush_ok (flushed : packing.flush = .ok next) :
    ∃ done, finishPacket packing.body = .ok done ∧
      next = ⟨packing.packets ++ [done], .empty, .default, false⟩ := by
  obtain ⟨done, finished, rest⟩ := bind_eq_ok.mp flushed
  exact ⟨done, finished, (Except.ok.inj rest).symm⟩

theorem overflows_fresh (packets : List (Encoded T)) (context : EncodeContext) (hasHello : Bool)
    (bodyBudget : Nat) (encoded : List UInt8) :
    overflows ⟨packets, .empty, context, hasHello⟩ bodyBudget encoded = false := rfl

variable {bodyBudget : Nat} {group : T × List T}

/-- A group goes to the open datagram or to a new one, and fits there. -/
theorem place_ok (placed : packing.place wire bodyBudget group = .ok next) :
    ∃ opened encoded,
      (opened = packing ∨ packing.body.bytes ≠ [] ∧ packing.flush = .ok opened) ∧
      encodeGroup bodyBudget opened.context ((groupTlvs group).map wire) = .ok encoded ∧
      opened.overflows bodyBudget encoded.1 = false ∧ next = opened.fill wire group encoded := by
  obtain ⟨encoded, encodes, placed⟩ := bind_eq_ok.mp placed
  split at placed
  · next overflow =>
      obtain ⟨fresh, flushed, placed⟩ := bind_eq_ok.mp placed
      obtain ⟨again, encodesAgain, placed⟩ := bind_eq_ok.mp placed
      obtain ⟨done, -, rfl⟩ := flush_ok flushed
      have filled : packing.body.bytes ≠ [] := by
        intro empty
        simp [overflows, empty] at overflow
      exact ⟨_, again, .inr ⟨filled, flushed⟩, encodesAgain, overflows_fresh .., (Except.ok.inj placed).symm⟩
  · next fits =>
      exact ⟨packing, encoded, .inl rfl, encodes, by simpa using fits, (Except.ok.inj placed).symm⟩

theorem add_ok (added : packing.add wire bodyBudget group = .ok next) :
    ∃ opened encoded, timestampedIhu (wire group.1) = false ∧
      (opened = packing ∧ packing.mustBreak (wire group.1) = false ∨
        packing.body.bytes ≠ [] ∧ packing.flush = .ok opened) ∧
      encodeGroup bodyBudget opened.context ((groupTlvs group).map wire) = .ok encoded ∧
      opened.overflows bodyBudget encoded.1 = false ∧ next = opened.fill wire group encoded := by
  rw [add] at added
  split at added
  · cases added
  · next plain =>
      have unstamped : timestampedIhu (wire group.1) = false := by simpa using plain
      split at added
      · next breaks =>
          obtain ⟨fresh, flushed, placed⟩ := bind_eq_ok.mp added
          obtain ⟨done, -, rfl⟩ := flush_ok flushed
          have filled : packing.body.bytes ≠ [] := by
            intro empty
            simp [mustBreak, empty] at breaks
          obtain ⟨opened, encoded, same | ⟨nonempty, -⟩, rest⟩ := place_ok placed
          · exact ⟨opened, encoded, unstamped, .inr ⟨filled, same ▸ flushed⟩, rest⟩
          · exact absurd rfl nonempty
      · next whole =>
          have unbroken : packing.mustBreak (wire group.1) = false := by simpa using whole
          obtain ⟨opened, encoded, same | flushed, rest⟩ := place_ok added
          · exact ⟨opened, encoded, unstamped, .inl ⟨same, unbroken⟩, rest⟩
          · exact ⟨opened, encoded, unstamped, .inr flushed, rest⟩

def taken (packing : Packing T) : List T :=
  packing.packets.flatMap Encoded.tlvs ++ packing.body.tlvs

theorem taken_flush (flushed : packing.flush = .ok next) :
    next.taken = packing.taken := by
  obtain ⟨done, finished, rfl⟩ := flush_ok flushed
  obtain ⟨-, tlvs, -⟩ := finishPacket_ok finished
  simp [taken, Encoded.empty, tlvs]

theorem taken_add (added : packing.add wire bodyBudget group = .ok next) :
    next.taken = packing.taken ++ groupTlvs group := by
  obtain ⟨opened, encoded, -, origin, -, -, rfl⟩ := add_ok added
  have same : opened.taken = packing.taken := by
    rcases origin with ⟨rfl, -⟩ | ⟨-, flushed⟩
    · rfl
    · exact taken_flush flushed
  rw [← same]
  simp [taken, fill]

end Packing

variable {wire}

/-- What a successful packetizer run is: the groups in order, then the last datagram. -/
theorem packetize_ok {tlvs : List T} {maxPacketSize : Nat} {packets : List (Encoded T)}
    (packetized : packetize wire tlvs maxPacketSize = .ok packets) :
    ∃ packing last, 4 ≤ maxPacketSize ∧
      (groups wire tlvs).foldlM (Packing.add wire (min maxPacketSize MAX_PACKET_SIZE - 4))
        Packing.start = .ok packing ∧
      finishPacket packing.body = .ok last ∧ packets = packing.packets ++ [last] := by
  rw [packetize] at packetized
  split at packetized
  · cases packetized
  · next enough =>
      obtain ⟨packing, loop, packetized⟩ := bind_eq_ok.mp packetized
      obtain ⟨last, finished, packetized⟩ := bind_eq_ok.mp packetized
      exact ⟨packing, last, Nat.le_of_not_lt enough, loop, finished,
        (Except.ok.inj packetized).symm⟩

/-- Nothing is lost, duplicated or reordered on the way into datagrams. -/
theorem packetize_tlvs {tlvs : List T} {maxPacketSize : Nat} {packets : List (Encoded T)}
    (packetized : packetize wire tlvs maxPacketSize = .ok packets) :
    packets.flatMap Encoded.tlvs = tlvs := by
  obtain ⟨packing, last, -, loop, finished, rfl⟩ := packetize_ok packetized
  have taken : packing.taken = ([] ++ groups wire tlvs).flatMap groupTlvs :=
    foldlM_kept (fun done packing => packing.taken = done.flatMap groupTlvs)
      (fun done before group after known added => by
        rw [Packing.taken_add added, known]
        simp)
      rfl loop
  rw [List.nil_append, groups_tlvs] at taken
  rw [List.flatMap_append, List.flatMap_singleton, (finishPacket_ok finished).2.1]
  exact taken

/-! ## What the sender remembers changes no octet -/

section Labels

variable (wire)

def relabel (group : T × List T) : OutboundTlv × List OutboundTlv :=
  (wire group.1, group.2.map wire)

theorem groupTlvs_relabel (group : T × List T) :
    groupTlvs (relabel wire group) = (groupTlvs group).map wire := rfl

theorem grouped_map (opened : Bool) (tlvs : List T) :
    grouped id opened (tlvs.map wire) =
      ((grouped wire opened tlvs).1.map wire, (grouped wire opened tlvs).2.map (relabel wire)) := by
  induction tlvs generalizing opened with
  | nil => rfl
  | cons tlv rest ih =>
    simp only [List.map_cons, grouped, id_eq]
    split
    · simp only [ih true, List.map_cons]
    · simp only [ih (timestampedHello (wire tlv)), List.map_cons, List.map_nil, relabel]

namespace Packing

def view (packing : Packing T) : Packing OutboundTlv where
  packets := packing.packets.map (Encoded.map wire)
  body := packing.body.map wire
  context := packing.context
  hasHello := packing.hasHello

theorem finishPacket_map (body : Encoded T) :
    finishPacket (body.map wire) = (finishPacket body).map (Encoded.map wire) := by
  by_cases large : 65535 < body.bytes.length
  · simp [finishPacket, Encoded.map, large, Except.map]
  · simp [finishPacket, Encoded.map, large, Except.map]

theorem flush_view (packing : Packing T) :
    (packing.view wire).flush = packing.flush.map (view wire) := by
  rw [flush, flush, map_bind, view, finishPacket_map, bind_map]
  refine congrArg _ (funext fun done => ?_)
  simp [pure, Except.pure, Except.map, view, Encoded.map, Encoded.empty]

theorem fill_view (packing : Packing T) (group : T × List T)
    (encoded : List UInt8 × EncodeContext) :
    (packing.view wire).fill id (relabel wire group) encoded =
      (packing.fill wire group encoded).view wire := by
  simp [fill, view, Encoded.map, groupTlvs, relabel]

theorem place_view (bodyBudget : Nat) (packing : Packing T) (group : T × List T) :
    (packing.view wire).place id bodyBudget (relabel wire group) =
      (packing.place wire bodyBudget group).map (view wire) := by
  have room : ∀ encoded, (packing.view wire).overflows bodyBudget encoded =
      packing.overflows bodyBudget encoded := fun _ => rfl
  simp only [place, map_bind, groupTlvs_relabel, List.map_id, room]
  refine congrArg _ (funext fun encoded => ?_)
  split
  · rw [map_bind, flush_view, bind_map]
    refine congrArg _ (funext fun fresh => ?_)
    rw [map_bind, context]
    refine congrArg _ (funext fun again => ?_)
    rw [fill_view]
    rfl
  · rw [fill_view]
    rfl

theorem add_view (bodyBudget : Nat) (packing : Packing T) (group : T × List T) :
    (packing.view wire).add id bodyBudget (relabel wire group) =
      (packing.add wire bodyBudget group).map (view wire) := by
  have breaks : ∀ tlv, (packing.view wire).mustBreak tlv = packing.mustBreak tlv := fun _ => rfl
  simp only [add, relabel, id_eq, breaks]
  split
  · rfl
  · split
    · rw [map_bind, flush_view, bind_map]
      exact congrArg _ (funext fun fresh => place_view wire bodyBudget fresh group)
    · exact place_view wire bodyBudget packing group

end Packing

theorem packetize_map (tlvs : List T) (maxPacketSize : Nat) :
    packetize id (tlvs.map wire) maxPacketSize =
      (packetize wire tlvs maxPacketSize).map (List.map (Encoded.map wire)) := by
  have sameGroups : groups id (tlvs.map wire) = (groups wire tlvs).map (relabel wire) := by
    rw [groups, grouped_map, groups]
  have loop := foldlM_map_view (Packing.view wire) (relabel wire)
    (Packing.add_view wire (min maxPacketSize MAX_PACKET_SIZE - 4)) (groups wire tlvs) Packing.start
  have begins : (Packing.start : Packing T).view wire = Packing.start := rfl
  rw [begins] at loop
  simp only [packetize, sameGroups, loop]
  split
  · rfl
  · rw [bind_map, map_bind]
    refine congrArg _ (funext fun packing => ?_)
    rw [map_bind, Packing.view, Packing.finishPacket_map, bind_map]
    refine congrArg _ (funext fun last => ?_)
    simp [pure, Except.pure, Except.map]

/-- The datagrams are those of `encode_packets` on the TLVs alone. -/
theorem packetize_bytes (tlvs : List T) (maxPacketSize : Nat) :
    (packetize wire tlvs maxPacketSize).map (List.map Encoded.bytes) =
      encodePackets ⟨tlvs.map wire⟩ maxPacketSize := by
  rw [encodePackets, packetize_map]
  cases packetize wire tlvs maxPacketSize with
  | error failure => rfl
  | ok packets => simp [Except.map, Encoded.map, Function.comp_def]

end Labels

end BabelRs.Wire
