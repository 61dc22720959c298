import BabelRs.Wire.Planned

/-!
# The decoder is safe on any input

No octet string and no source address makes the decoder index or slice out of range,
subtract below zero or shift too far, no loop runs out of the fuel it is given, and all loops
together make at most one pass for each octet of the input.
-/

set_option autoImplicit false

namespace BabelRs.Wire

open Lib Lib.Checked Lib.Metered

/-! ## Numbers -/

theorem safe_be32 {data : List UInt8} (long : 4 ≤ data.length) : Safe (be32 data) := by
  refine safe_bind (safe_index (by omega)) fun _ _ => ?_
  refine safe_bind (safe_index (by omega)) fun _ _ => ?_
  refine safe_bind (safe_index (by omega)) fun _ _ => ?_
  refine safe_bind (safe_index (by omega)) fun _ _ => ?_
  exact safe_pure _

theorem safe_sliceFrom {A B : Type} {data : List A} {start : Nat}
    {next : List A → Checked WireError B} (inside : start ≤ data.length)
    (then_ : ∀ piece, piece.length = data.length - start → Safe (next piece)) :
    Safe (sliceFrom data start >>= next) :=
  safe_bind (safe_slice ⟨inside, le_refl _⟩) fun piece cut => then_ piece (length_of_slice cut)

/-! ## Sub-TLVs -/

theorem safe_decodePrefix (ae : AddressEncoding) (plen omitted : Nat) (suffix : List UInt8)
    (previous : Option (List UInt8)) : Safe (decodePrefix ae plen omitted suffix previous) := by
  rw [decodePrefix_eq]
  exact safe_ok _

variable (value : List UInt8) (state : ParserState) (context : SubContext)

theorem safe_decodeTimestamp (body : List UInt8) :
    Safe (decodeTimestamp context body) := by
  unfold decodeTimestamp
  split
  · split
    · exact safe_bind (safe_be32 ‹_›) fun _ _ => safe_pure _
    · exact safe_ok _
  · split
    · refine safe_bind (safe_be32 (by omega)) fun _ _ => ?_
      refine safe_sliceFrom (by omega) fun piece size => ?_
      exact safe_bind (safe_be32 (by omega)) fun _ _ => safe_pure _
    · exact safe_ok _
  · exact safe_ok _

theorem safe_decodeSourcePrefix (destination : Option IpNet) (result : DecodedSubTlvs)
    (body : List UInt8) :
    Safe (decodeSourcePrefix context destination result body) := by
  unfold decodeSourcePrefix
  split
  · exact safe_ok _
  · exact safe_ok _
  · split
    · exact safe_ok _
    · rename_i allowed
      have nonempty : body ≠ [] := fun empty => allowed (.inr (.inr empty))
      refine safe_bind (safe_index (List.length_pos_of_ne_nil nonempty)) fun plen _ => ?_
      rw [raw_prefixEncodedLen, ok_bind]
      split
      · exact safe_pure _
      split
      · exact safe_pure _
      split
      · exact safe_pure _
      refine safe_bind (safe_slice ⟨by omega, by omega⟩) fun piece _ => ?_
      exact safe_bind (safe_decodePrefix _ _ _ _ _) fun _ _ => safe_pure _

theorem safe_decodeSubTlv (destination : Option IpNet) (result : DecodedSubTlvs) (frame : Frame) :
    Safe (decodeSubTlv context destination result frame) := by
  unfold decodeSubTlv
  split
  · exact safe_ok _
  · split
    · exact safe_ok _
    split
    · exact safe_bind (safe_decodeTimestamp _ _) fun _ _ => safe_pure _
    split
    · refine safe_bind (safe_decodeSourcePrefix _ _ _ _) fun found _ => ?_
      split <;> exact safe_pure _
    · exact safe_ok _

theorem safe_foldFrames {E S : Type} (cut : UInt8 → E) {handle : S → Frame → Checked E S}
    (safe : ∀ s frame, Safe (handle s frame)) (framed : Framed) (s : S) :
    Safe (foldFrames cut handle framed s) := by
  refine safe_bind (safe_foldlM safe _ _) fun result _ => ?_
  split
  · exact safe_fail _
  · exact safe_pure _

theorem safe_decodeSubTlvs (data : List UInt8) (context : SubContext)
    (destination : Option IpNet) : Safe (decodeSubTlvs data context destination) := by
  rw [decodeSubTlvs_eq]
  exact safe_foldFrames _ (safe_decodeSubTlv context destination) _ _

/-! ## TLVs

The decoder does what its plans say, with every panic of its own included, so it is enough
that no plan panics. -/

theorem safe_planIhu : Safe (planIhu value state) := by
  unfold planIhu
  split
  · split
    · exact safe_ok _
    · exact safe_ok _
    · dsimp only
      split
      · exact safe_fail _
      · exact safe_ok _
  · exact safe_fail _

theorem safe_planNextHop :
    Safe (planNextHop value state) := by
  unfold planNextHop
  split
  · split
    · exact safe_ok _
    · exact safe_ok _
    · exact safe_ok _
    · dsimp only
      split
      · exact safe_fail _
      · split
        · exact safe_fail _
        · exact safe_ok _
  · exact safe_fail _

theorem safe_planPrefixUpdate (fields : UpdateFields) (rest : List UInt8) (state : ParserState) :
    Safe (planPrefixUpdate fields rest state) := by
  unfold planPrefixUpdate
  split
  · exact safe_fail _
  · dsimp only
    split
    · exact safe_fail _
    · split
      · exact safe_ok _
      · exact safe_ok _

theorem safe_planUpdate :
    Safe (planUpdate value state) := by
  unfold planUpdate planUpdateFields
  split
  · split
    · exact safe_ok _
    split
    · exact safe_fail _
    split
    · exact safe_ok _
    split
    · exact safe_ok _
    · exact safe_planPrefixUpdate _ _ _
  · exact safe_fail _

theorem safe_planRequest (type : UInt8) (ae : AddressEncoding) (plen size : Nat)
    (rest : List UInt8) (state : ParserState) (finish : RouteKey → List SubTlv → Tlv) :
    Safe (planRequest type ae plen size rest state finish) := by
  unfold planRequest
  split
  · exact safe_fail _
  · exact safe_ok _

theorem safe_planRouteRequest :
    Safe (planRouteRequest value state) := by
  unfold planRouteRequest
  split
  · split
    · exact safe_ok _
    split
    · split
      · exact safe_ok _
      · exact safe_ok _
    split
    · exact safe_fail _
    split
    · exact safe_fail _
    · exact safe_planRequest _ _ _ _ _ _ _
  · exact safe_fail _

theorem safe_planSeqnoRequest :
    Safe (planSeqnoRequest value state) := by
  unfold planSeqnoRequest
  split
  · split
    · exact safe_fail _
    split
    · exact safe_ok _
    split
    · exact safe_ok _
    split
    · exact safe_fail _
    split
    · exact safe_fail _
    split
    · exact safe_fail _
    · exact safe_planRequest _ _ _ _ _ _ _
  · exact safe_fail _

theorem safe_planFixed :
    Safe (planAckRequest value state) ∧ Safe (planAck value state) ∧
      Safe (planHello value state) ∧ Safe (planRouterId value state) := by
  unfold planAckRequest planAck planHello planRouterId
  refine ⟨?_, ?_, ?_, ?_⟩
  all_goals
    repeat' split
    all_goals first
      | exact safe_fail _
      | exact safe_ok _

theorem safe_planTlv (type : UInt8) (value : List UInt8) (state : ParserState) :
    Safe (planTlv type value state) := by
  obtain ⟨ackRequest, ack, hello, routerId⟩ := safe_planFixed value state
  unfold planTlv
  split
  · exact safe_ok _
  split
  · exact ackRequest
  split
  · exact ack
  split
  · exact hello
  split
  · exact safe_planIhu value state
  split
  · exact routerId
  split
  · exact safe_planNextHop value state
  split
  · exact safe_planUpdate value state
  split
  · exact safe_planRouteRequest value state
  split
  · exact safe_planSeqnoRequest value state
  · exact safe_ok _

theorem safe_reading {reading : Reading} (safe : ∀ sub, Safe (reading.finish sub)) :
    Safe reading.run := by
  refine safe_bind (safe_decodeSubTlvs _ _ _) fun sub _ => ?_
  split
  · exact safe_pure _
  · exact safe_bind (safe sub) fun _ _ => safe_pure _

theorem safe_run {type : UInt8} {value : List UInt8} {state : ParserState} {plan : Plan}
    (planned : Planned state type value plan) : Safe (plan.run state) := by
  cases planned with
  | skip => exact safe_ok _
  | whole bare same => exact safe_ok _
  | update fields net own interval about family =>
    exact safe_reading fun sub => safe_bind (safe_orFail _ _) fun _ _ => safe_pure _
  | routeRequest ae net about =>
    exact safe_reading fun sub => safe_bind (safe_orFail _ _) fun _ _ => safe_pure _
  | seqnoRequest ae net seqno hopCount id about hops =>
    exact safe_reading fun sub => safe_bind (safe_orFail _ _) fun _ _ => safe_pure _
  | _ => exact safe_reading fun sub => safe_ok _

/-! ## Packets -/

theorem safe_decodeTlv (type : UInt8) (value : List UInt8) (state : ParserState) :
    Safe (decodeTlv type value state) := by
  rw [decodeTlv_eq]
  exact safe_bind (safe_planTlv type value state) fun plan planned =>
    safe_run (planTlv_planned planned)

theorem safe_decodeFrame (parsed : List Tlv × ParserState) (frame : Frame) :
    Safe (decodeFrame parsed frame) := by
  cases frame with
  | pad1 => exact safe_ok _
  | tlv type value =>
    rw [decodeFrame_tlv]
    exact safe_bind (safe_decodeTlv _ _ _) fun _ _ => safe_ok _

theorem safe_decodeBody (body : List UInt8) (source : IpAddr) : Safe (decodeBody body source) := by
  have walked := safe_foldFrames WireError.truncatedTlv safe_decodeFrame (frames body)
    ([], .new source)
  rw [decodeBody_eq]
  cases parsed : foldFrames .truncatedTlv decodeFrame (frames body) ([], .new source) with
  | error fault =>
    rw [parsed] at walked
    exact fun impossible => walked (congrArg Except.error (Except.error.inj impossible))
  | ok result => exact safe_ok _

theorem safe_decodePacket (data : List UInt8) (context : DecodeContext) :
    Safe (decodePacket data context) := by
  match data with
  | [] => exact safe_fail _
  | [_] => exact safe_fail _
  | [_, _] => exact safe_fail _
  | [_, _, _] => exact safe_fail _
  | magic :: version :: high :: low :: rest =>
    rw [decodePacket_cons]
    split
    · exact safe_fail _
    split
    · exact safe_fail _
    split
    · exact safe_fail _
    exact safe_decodeBody _ _

/-! ## Passes

Every TLV is read once and its sub-TLVs are walked over at most once, and these are a tail of
its value. -/

section Passes

open Loops (keeping hasUnknownMandatory decodeAckRequest decodeAck decodeHello decodeIhu
  decodeRouterId decodeNextHop decodeWildcardUpdate decodePrefixUpdate decodeUpdate
  decodeRequestKey decodeRouteRequest decodeSeqnoRequest)

theorem passes_decodeSubTlvs_le (data : List UInt8) (context : SubContext)
    (destination : Option IpNet) :
    (Loops.decodeSubTlvs data context destination).passes ≤ data.length :=
  passes_walk_le _ (fun _ _ => Nat.zero_le _) data data.length 0 _

theorem passes_hasUnknownMandatory_le (data : List UInt8) :
    (hasUnknownMandatory data).passes ≤ data.length :=
  passes_last_le (passes_decodeSubTlvs_le data .hello none) fun _ => le_refl 0

theorem passes_tail_le {A : Type} {data : List UInt8} {start : Nat}
    {read : List UInt8 → Metered WireError A} (within : ∀ rest, (read rest).passes ≤ rest.length) :
    (check (sliceFrom data start) >>= read).passes ≤ data.length := by
  refine passes_check_bind_le fun rest cut => (within rest).trans ?_
  rw [length_of_slice cut]
  exact Nat.sub_le _ _

theorem passes_subTlvs_le {A : Type} {data : List UInt8} {start : Nat} {context : SubContext}
    {destination : Option IpNet} {next : DecodedSubTlvs → Metered WireError A}
    (after : ∀ sub, (next sub).passes ≤ 0) :
    (check (sliceFrom data start) >>= fun rest =>
      Loops.decodeSubTlvs rest context destination >>= next).passes ≤ data.length :=
  passes_tail_le fun rest => passes_last_le (passes_decodeSubTlvs_le rest _ _) after

theorem passes_mandatory_le {A : Type} {data : List UInt8} {start : Nat}
    {next : Bool → Metered WireError A} (after : ∀ discarded, (next discarded).passes ≤ 0) :
    (check (sliceFrom data start) >>= fun rest =>
      hasUnknownMandatory rest >>= next).passes ≤ data.length :=
  passes_tail_le fun rest => passes_last_le (passes_hasUnknownMandatory_le rest) after

theorem passes_keeping_le {decoded : Metered WireError (Option Tlv)} {bound : Nat}
    (read : decoded.passes ≤ bound) : (keeping state decoded).passes ≤ bound :=
  passes_last_le read fun _ => le_refl 0

theorem passes_decodeAckRequest_le : (decodeAckRequest value).passes ≤ value.length := by
  unfold decodeAckRequest
  split
  · exact Nat.zero_le _
  refine passes_check_bind_le fun _ _ => passes_check_bind_le fun intervalCs _ => ?_
  split
  · exact Nat.zero_le _
  refine passes_mandatory_le fun discarded => ?_
  exact passes_check_bind_le fun _ _ => passes_check_bind_le fun _ _ => le_refl 0

theorem passes_decodeAck_le : (decodeAck value).passes ≤ value.length := by
  unfold decodeAck
  split
  · exact Nat.zero_le _
  exact passes_mandatory_le fun discarded => passes_check_bind_le fun _ _ => le_refl 0

theorem passes_decodeHello_le : (decodeHello value).passes ≤ value.length := by
  unfold decodeHello
  split
  · exact Nat.zero_le _
  refine passes_subTlvs_le fun subTlvs => passes_check_bind_le fun flags _ => ?_
  refine passes_check_bind_le fun _ _ => passes_check_bind_le fun seqno _ => ?_
  exact passes_check_bind_le fun _ _ => passes_check_bind_le fun intervalCs _ => le_refl 0

theorem passes_decodeIhu_le : (decodeIhu value).passes ≤ value.length := by
  unfold decodeIhu
  split
  · exact Nat.zero_le _
  refine passes_check_bind_le fun encoding _ => ?_
  split
  · exact Nat.zero_le _
  · exact Nat.zero_le _
  refine passes_check_bind_le fun addrLen _ => ?_
  refine passes_check_bind_le fun _ _ => passes_check_bind_le fun intervalCs _ => ?_
  split
  · exact Nat.zero_le _
  refine passes_check_bind_le fun _ _ => passes_check_bind_le fun address _ => ?_
  refine passes_subTlvs_le fun subTlvs => ?_
  exact passes_check_bind_le fun _ _ => passes_check_bind_le fun rxcost _ => le_refl 0

theorem passes_decodeRouterId_le : (decodeRouterId value state).passes ≤ value.length := by
  unfold decodeRouterId
  split
  · exact Nat.zero_le _
  refine passes_check_bind_le fun raw _ => passes_check_bind_le fun id _ => ?_
  exact passes_mandatory_le fun discarded => le_refl 0

theorem passes_decodeNextHop_le : (decodeNextHop value state).passes ≤ value.length := by
  unfold decodeNextHop
  split
  · exact Nat.zero_le _
  refine passes_check_bind_le fun encoding _ => ?_
  split
  · exact Nat.zero_le _
  · exact Nat.zero_le _
  · exact Nat.zero_le _
  refine passes_check_bind_le fun addrLen _ => ?_
  split
  · exact Nat.zero_le _
  refine passes_check_bind_le fun _ _ => passes_check_bind_le fun decoded _ => ?_
  refine passes_check_bind_le fun address _ => ?_
  exact passes_mandatory_le fun discarded => le_refl 0

theorem passes_decodePrefixUpdate_le (fields : UpdateFields) :
    (decodePrefixUpdate fields value state).passes ≤ value.length := by
  refine passes_check_bind_le fun encoded _ => passes_check_bind_le fun encodedLen _ => ?_
  split
  · exact Nat.zero_le _
  refine passes_check_bind_le fun natural _ => ?_
  split
  · exact Nat.zero_le _
  refine passes_check_bind_le fun bytes _ => passes_check_bind_le fun decoded _ => ?_
  split
  · exact Nat.zero_le _
  refine passes_check_bind_le fun after _ => passes_subTlvs_le fun sub => ?_
  split
  · exact le_refl 0
  · exact passes_check_bind_le fun key _ => le_refl 0

theorem passes_decodeUpdate_le : (decodeUpdate value state).passes ≤ value.length := by
  unfold decodeUpdate
  split
  · exact Nat.zero_le _
  refine passes_check_bind_le fun encoding _ => ?_
  split
  · exact Nat.zero_le _
  refine passes_check_bind_le fun flags _ => passes_check_bind_le fun plen _ => ?_
  refine passes_check_bind_le fun omitted _ => ?_
  refine passes_check_bind_le fun _ _ => passes_check_bind_le fun intervalCs _ => ?_
  refine passes_check_bind_le fun _ _ => passes_check_bind_le fun seqno _ => ?_
  refine passes_check_bind_le fun _ _ => passes_check_bind_le fun metric _ => ?_
  dsimp only
  split
  · exact Nat.zero_le _
  split
  · split
    · exact Nat.zero_le _
    refine passes_tail_le fun rest => passes_last_le ?_ fun _ => le_refl 0
    unfold decodeWildcardUpdate
    split
    · exact Nat.zero_le _
    exact passes_last_le (passes_decodeSubTlvs_le rest _ _) fun _ => le_refl 0
  split
  · exact Nat.zero_le _
  · exact passes_decodePrefixUpdate_le value state _

theorem passes_decodeRequestKey_le (type : UInt8) (ae : AddressEncoding) (plen size : Nat)
    (data : List UInt8) : (decodeRequestKey type ae plen size data).passes ≤ data.length := by
  refine passes_check_bind_le fun _ _ => passes_check_bind_le fun decoded _ => ?_
  refine passes_check_bind_le fun net _ => passes_subTlvs_le fun sub => ?_
  split
  · exact le_refl 0
  · exact passes_check_bind_le fun key _ => le_refl 0

theorem passes_decodeRouteRequest_le : (decodeRouteRequest value).passes ≤ value.length := by
  unfold decodeRouteRequest
  split
  · exact Nat.zero_le _
  refine passes_check_bind_le fun encoding _ => ?_
  split
  · exact Nat.zero_le _
  refine passes_check_bind_le fun plen _ => ?_
  dsimp only
  split
  · split
    · exact Nat.zero_le _
    · exact passes_subTlvs_le fun sub => le_refl 0
  refine passes_check_bind_le fun encoded _ => passes_check_bind_le fun size _ => ?_
  split
  · exact Nat.zero_le _
  exact passes_tail_le fun rest =>
    passes_last_le (passes_decodeRequestKey_le _ _ _ _ rest) fun _ => le_refl 0

theorem passes_decodeSeqnoRequest_le : (decodeSeqnoRequest value).passes ≤ value.length := by
  unfold decodeSeqnoRequest
  split
  · exact Nat.zero_le _
  refine passes_check_bind_le fun encoding _ => ?_
  split
  · exact Nat.zero_le _
  split
  · exact Nat.zero_le _
  refine passes_check_bind_le fun plen _ => passes_check_bind_le fun encoded _ => ?_
  refine passes_check_bind_le fun size _ => passes_check_bind_le fun hopCount _ => ?_
  split
  · exact Nat.zero_le _
  refine passes_check_bind_le fun raw _ => passes_check_bind_le fun routerId _ => ?_
  refine passes_check_bind_le fun _ _ => passes_check_bind_le fun seqno _ => ?_
  exact passes_tail_le fun rest =>
    passes_last_le (passes_decodeRequestKey_le _ _ _ _ rest) fun _ => le_refl 0

theorem passes_decodeTlv_le (type : UInt8) :
    (Loops.decodeTlv type value state).passes ≤ value.length := by
  unfold Loops.decodeTlv
  split
  · exact Nat.zero_le _
  split
  · exact passes_keeping_le state (passes_decodeAckRequest_le value)
  split
  · exact passes_keeping_le state (passes_decodeAck_le value)
  split
  · exact passes_keeping_le state (passes_decodeHello_le value)
  split
  · exact passes_keeping_le state (passes_decodeIhu_le value)
  split
  · exact passes_decodeRouterId_le value state
  split
  · exact passes_decodeNextHop_le value state
  split
  · exact passes_decodeUpdate_le value state
  split
  · exact passes_keeping_le state (passes_decodeRouteRequest_le value)
  split
  · exact passes_keeping_le state (passes_decodeSeqnoRequest_le value)
  · exact Nat.zero_le _

theorem passes_decodeFrame_le (parsed : List Tlv × ParserState) (frame : Frame) :
    (Loops.decodeFrame parsed frame).passes ≤ frame.payload.length := by
  cases frame with
  | pad1 => exact le_refl 0
  | tlv type value => exact passes_last_le (passes_decodeTlv_le value _ type) fun _ => le_refl 0

theorem passes_decodePacket_le (data : List UInt8) (context : DecodeContext) :
    (Loops.decodePacket data context).passes ≤ data.length := by
  unfold Loops.decodePacket
  split
  · exact Nat.zero_le _
  refine passes_check_bind_le fun magic _ => ?_
  split
  · exact Nat.zero_le _
  refine passes_check_bind_le fun version _ => ?_
  split
  · exact Nat.zero_le _
  refine passes_check_bind_le fun high _ => passes_check_bind_le fun low _ => ?_
  dsimp only
  split
  · exact Nat.zero_le _
  refine passes_check_bind_le fun body cut => passes_last_le ?_ fun _ => le_refl 0
  calc (walk .truncatedTlv Loops.decodeFrame body body.length 0 ([], .new context.source)).passes
      ≤ body.length := passes_walk_le _ passes_decodeFrame_le body body.length 0 _
    _ ≤ data.length := by
        have fits := stop_le_of_slice cut
        rw [length_of_slice cut]
        omega

end Passes

/-- No input makes the decoder panic, and its loops make at most one pass for each octet. -/
theorem decoder_is_safe (data : List UInt8) (context : DecodeContext) :
    Safe (decodePacket data context) ∧ (Loops.decodePacket data context).passes ≤ data.length :=
  ⟨safe_decodePacket data context, passes_decodePacket_le data context⟩

end BabelRs.Wire
