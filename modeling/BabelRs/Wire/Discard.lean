import BabelRs.Wire.Body
import BabelRs.Wire.Planned

/-!
# A mandatory sub-TLV removes its own TLV

Octets appended to a TLV leave its fields alone, so its plan only gets longer sub-TLVs.
A sub-TLV of an unknown mandatory type among them discards the TLV, after its context
has taken effect.
-/

set_option autoImplicit false

namespace BabelRs.Wire

open Lib Lib.Checked

/-! ## Appending to a TLV -/

/-- The plan with more octets behind the fields.  A TLV without sub-TLVs has no such place
and is not kept. -/
def Plan.extend (plan : Plan) (extra : List UInt8) : Plan :=
  match plan with
  | .skip => .skip
  | .whole _ => .skip
  | .read reading => .read { reading with rest := reading.rest ++ extra }

variable {type : UInt8} {rest : List UInt8}

section Append
variable {value : List UInt8} {state : ParserState} {plan : Plan} (extra : List UInt8)

theorem planAckRequest_append (planned : planAckRequest value state = .ok plan) :
    planAckRequest (value ++ extra) state = .ok (plan.extend extra) := by
  unfold planAckRequest at planned
  split at planned
  · split at planned
    · cases planned
    · rename_i positive
      cases planned
      simp only [planAckRequest, List.cons_append, if_neg positive]
      rfl
  · cases planned

theorem planAck_append (planned : planAck value state = .ok plan) :
    planAck (value ++ extra) state = .ok (plan.extend extra) := by
  unfold planAck at planned
  split at planned
  · cases planned
    rfl
  · cases planned

theorem planHello_append (planned : planHello value state = .ok plan) :
    planHello (value ++ extra) state = .ok (plan.extend extra) := by
  unfold planHello at planned
  split at planned
  · cases planned
    rfl
  · cases planned

/-- Octets in front of a cut do not see what is appended. -/
theorem take_drop_append {size : Nat} (fits : ¬ rest.length < size) :
    ¬ (rest ++ extra).length < size ∧ (rest ++ extra).take size = rest.take size ∧
      (rest ++ extra).drop size = rest.drop size ++ extra := by
  have enough := not_lt.mp fits
  refine ⟨?_, List.take_append_of_le_length enough, List.drop_append_of_le_length enough⟩
  rw [List.length_append]
  omega

theorem planIhu_append (planned : planIhu value state = .ok plan) :
    planIhu (value ++ extra) state = .ok (plan.extend extra) := by
  unfold planIhu at planned
  split at planned
  · simp only [planIhu, List.cons_append]
    split at planned
    · cases planned
      rfl
    · cases planned
      rfl
    · simp only at planned
      split at planned
      · cases planned
      · rename_i whole
        simp only [not_or] at whole
        obtain ⟨long, front, back⟩ := take_drop_append extra whole.1
        cases planned
        simp only [front, back, if_neg (not_or.mpr ⟨long, whole.2⟩)]
        rfl
  · cases planned

theorem planRouterId_append (planned : planRouterId value state = .ok plan) :
    planRouterId (value ++ extra) state = .ok (plan.extend extra) := by
  unfold planRouterId at planned
  split at planned
  · split at planned
    · cases planned
    · rename_i whole
      obtain ⟨long, front, back⟩ := take_drop_append extra whole
      split at planned
      · cases planned
      · rename_i id known
        cases planned
        simp only [planRouterId, List.cons_append, if_neg long, front, back, known]
        rfl
  · cases planned

theorem planNextHop_append (planned : planNextHop value state = .ok plan) :
    planNextHop (value ++ extra) state = .ok (plan.extend extra) := by
  unfold planNextHop at planned
  split at planned
  · simp only [planNextHop, List.cons_append]
    split at planned
    · cases planned
      rfl
    · cases planned
      rfl
    · cases planned
      rfl
    · simp only at planned
      split at planned
      · cases planned
      · rename_i whole
        obtain ⟨long, front, back⟩ := take_drop_append extra whole
        split at planned
        · cases planned
        · rename_i address spelled
          cases planned
          simp only [if_neg long, front, back, spelled]
          rfl
  · cases planned

theorem planPrefixUpdate_append {fields : UpdateFields}
    (planned : planPrefixUpdate fields rest state = .ok plan) :
    planPrefixUpdate fields (rest ++ extra) state = .ok (plan.extend extra) := by
  unfold planPrefixUpdate at planned ⊢
  split at planned
  · cases planned
  · simp only at planned ⊢
    split at planned
    · cases planned
    · rename_i whole
      simp only [not_or] at whole
      obtain ⟨long, front, back⟩ := take_drop_append extra whole.2
      rw [if_neg (not_or.mpr ⟨whole.1, long⟩), front, back]
      split at planned
      · cases planned
        rfl
      · cases planned
        rfl

theorem planUpdate_append (planned : planUpdate value state = .ok plan) :
    planUpdate (value ++ extra) state = .ok (plan.extend extra) := by
  unfold planUpdate at planned
  split at planned
  · simp only [planUpdate, List.cons_append]
    split at planned
    · cases planned
      rfl
    · unfold planUpdateFields at planned ⊢
      split at planned
      · cases planned
      split at planned
      · cases planned
        rename_i positive wild
        rw [if_neg positive, if_pos wild, planWildcardUpdate, planWildcardUpdate]
        split <;> rfl
      split at planned
      · cases planned
        rename_i positive prefixed compressed
        rw [if_neg positive, if_neg prefixed, if_pos compressed]
        rfl
      · rename_i positive prefixed plain
        rw [if_neg positive, if_neg prefixed, if_neg plain]
        exact planPrefixUpdate_append extra planned
  · cases planned

theorem planRequest_append {ae : AddressEncoding} {plen size : Nat}
    {finish : RouteKey → List SubTlv → Tlv} (fits : ¬ rest.length < size)
    (planned : planRequest type ae plen size rest state finish = .ok plan) :
    planRequest type ae plen size (rest ++ extra) state finish = .ok (plan.extend extra) := by
  obtain ⟨-, front, back⟩ := take_drop_append extra fits
  unfold planRequest at planned ⊢
  rw [front, back]
  split at planned
  · cases planned
  · cases planned
    rfl

theorem planRouteRequest_append (planned : planRouteRequest value state = .ok plan) :
    planRouteRequest (value ++ extra) state = .ok (plan.extend extra) := by
  unfold planRouteRequest at planned
  split at planned
  · simp only [planRouteRequest, List.cons_append]
    split at planned
    · cases planned
      rfl
    · split at planned
      · rename_i wild
        rw [if_pos wild]
        split at planned
        · cases planned
          rename_i odd
          rw [if_pos odd]
          rfl
        · cases planned
          rename_i even
          rw [if_neg even]
          rfl
      · rename_i prefixed
        rw [if_neg prefixed]
        split at planned
        · cases planned
        · split at planned
          · cases planned
          · rename_i whole
            simp only [if_neg (take_drop_append extra whole).1]
            exact planRequest_append extra whole planned
  · cases planned

theorem planSeqnoRequest_append (planned : planSeqnoRequest value state = .ok plan) :
    planSeqnoRequest (value ++ extra) state = .ok (plan.extend extra) := by
  unfold planSeqnoRequest at planned
  split at planned
  · rename_i e plen s0 s1 hopCount r fields
    split at planned
    · cases planned
    rename_i eight
    obtain ⟨long, front, back⟩ := take_drop_append extra eight
    simp only [planSeqnoRequest, List.cons_append, if_neg long]
    split at planned
    · cases planned
      rfl
    · split at planned
      · cases planned
        rename_i wild
        rw [if_pos wild]
        rfl
      · rename_i prefixed
        rw [if_neg prefixed]
        split at planned
        · cases planned
        · rename_i size encoded
          split at planned
          · cases planned
          · rename_i whole
            simp only [not_or] at whole
            have enough : ¬ (fields.drop 8).length < size := by
              rw [List.length_drop]
              omega
            simp only [if_neg (not_or.mpr
              ⟨(take_drop_append extra whole.1).1, whole.2⟩), front, back]
            split at planned
            · cases planned
            · exact planRequest_append extra enough planned
  · cases planned

theorem planTlv_append (structured : Structured type)
    (planned : planTlv type value state = .ok plan) :
    planTlv type (value ++ extra) state = .ok (plan.extend extra) := by
  unfold planTlv at planned ⊢
  split at planned
  · rename_i padding
    exact absurd (padding ▸ structured.1) (by decide)
  rw [if_neg ‹_›]
  split at planned
  · rw [if_pos ‹_›]
    exact planAckRequest_append extra planned
  rw [if_neg ‹_›]
  split at planned
  · rw [if_pos ‹_›]
    exact planAck_append extra planned
  rw [if_neg ‹_›]
  split at planned
  · rw [if_pos ‹_›]
    exact planHello_append extra planned
  rw [if_neg ‹_›]
  split at planned
  · rw [if_pos ‹_›]
    exact planIhu_append extra planned
  rw [if_neg ‹_›]
  split at planned
  · rw [if_pos ‹_›]
    exact planRouterId_append extra planned
  rw [if_neg ‹_›]
  split at planned
  · rw [if_pos ‹_›]
    exact planNextHop_append extra planned
  rw [if_neg ‹_›]
  split at planned
  · rw [if_pos ‹_›]
    exact planUpdate_append extra planned
  rw [if_neg ‹_›]
  split at planned
  · rw [if_pos ‹_›]
    exact planRouteRequest_append extra planned
  rw [if_neg ‹_›]
  split at planned
  · rw [if_pos ‹_›]
    exact planSeqnoRequest_append extra planned
  · rename_i n2 n3 n4 n5 n6 n7 n8 n9 n10
    exact absurd structured (not_structured n2 n3 n4 n5 n6 n7 n8 n9 n10)

end Append

/-! ## The sub-TLV -/

theorem decodeSubTlvs_eq_ok {data : List UInt8} {context : SubContext}
    {destination : Option IpNet} {sub : DecodedSubTlvs} :
    decodeSubTlvs data context destination = .ok sub ↔ (frames data).truncated = none ∧
      (frames data).frames.foldlM (decodeSubTlv context destination) .start = .ok sub := by
  rw [decodeSubTlvs_eq, foldFrames, bind_eq_ok]
  cases (frames data).truncated <;> simp [fail, pure, Except.pure]

/-- The types that discard a TLV wherever they stand; 128 is the source prefix. -/
def UnknownMandatory (type : UInt8) : Prop := 129 ≤ type

theorem decodeSubTlv_mandatory (mandatory : UnknownMandatory type) (context : SubContext)
    (destination : Option IpNet) (sub : DecodedSubTlvs) (body : List UInt8) :
    decodeSubTlv context destination sub (.tlv type body) =
      .ok (sub.refuse.push (.unknown type body)) := by
  have bit : type &&& 0x80 ≠ 0 ∧ type ≠ 1 ∧ type ≠ SUBTLV_TIMESTAMP ∧
      type ≠ SUBTLV_SOURCE_PREFIX := by
    revert mandatory
    obtain ⟨bits⟩ := type
    revert bits
    unfold UnknownMandatory
    decide +kernel
  obtain ⟨high, padding, timestamp, source⟩ := bit
  simp only [decodeSubTlv, if_neg padding, if_neg timestamp, if_neg source, if_pos high]

variable {body : List UInt8}

theorem decodeSubTlvs_mandatory {context : SubContext} {destination : Option IpNet}
    {sub : DecodedSubTlvs} (mandatory : UnknownMandatory type)
    (writable : (Frame.tlv type body).Writable)
    (decoded : decodeSubTlvs rest context destination = .ok sub) :
    decodeSubTlvs (rest ++ (Frame.tlv type body).bytes) context destination =
      .ok (sub.refuse.push (.unknown type body)) := by
  obtain ⟨whole, folded⟩ := decodeSubTlvs_eq_ok.mp decoded
  have last := frames_bytes_append writable []
  rw [List.append_nil, frames_nil] at last
  rw [decodeSubTlvs_eq_ok, frames_append rest _ whole, last]
  refine ⟨rfl, ?_⟩
  simp only [Framed.frames_precede, Framed.nothing, List.append_nil, List.foldlM_append, folded,
    ok_bind, List.foldlM_cons, List.foldlM_nil, decodeSubTlv_mandatory mandatory]
  rfl

/-- The TLV is gone and the context it leaves is the same. -/
theorem run_extend {plan : Plan} {state after : ParserState} {entry : Option Tlv}
    (mandatory : UnknownMandatory type) (writable : (Frame.tlv type body).Writable)
    (ran : plan.run state = .ok (entry, after)) :
    (plan.extend (Frame.tlv type body).bytes).run state = .ok (none, after) := by
  cases plan with
  | skip =>
    cases ran
    rfl
  | whole tlv =>
    cases ran
    rfl
  | read reading =>
    obtain ⟨sub, decoded, finished⟩ := bind_eq_ok.mp ran
    have left : after = reading.after := by
      split at finished
      · cases finished
        rfl
      · obtain ⟨_, -, last⟩ := bind_eq_ok.mp finished
        cases last
        rfl
    subst left
    simp only [Plan.extend, Plan.run, Reading.run,
      decodeSubTlvs_mandatory mandatory writable decoded, ok_bind]
    rfl

theorem decodeTlv_mandatory {unknown : UInt8} {value : List UInt8} {state after : ParserState}
    {entry : Option Tlv} (structured : Structured type) (mandatory : UnknownMandatory unknown)
    (writable : (Frame.tlv unknown body).Writable)
    (decoded : decodeTlv type value state = .ok (entry, after)) :
    decodeTlv type (value ++ (Frame.tlv unknown body).bytes) state = .ok (none, after) := by
  rw [decodeTlv_eq] at decoded ⊢
  obtain ⟨plan, planned, ran⟩ := bind_eq_ok.mp decoded
  rw [planTlv_append _ structured planned, ok_bind]
  exact run_extend mandatory writable ran

/-- An accepted packet, any of its TLVs of type 2 to 10, and what a sub-TLV of unknown
mandatory type at its end changes: the TLV's own entry is missing, nothing else. -/
theorem mandatory_sub_tlv_removes_its_tlv {data : List UInt8} {context : DecodeContext}
    {packet : Packet} (accepted : decodePacket data context = .ok packet) :
    ∃ written trailer, data = assemble written trailer ∧ (∀ frame ∈ written, frame.Writable) ∧
      ∀ front type value back, written = front ++ .tlv type value :: back → Structured type →
        ∃ before state entry after later,
          decodeFrames front (.new context.source) = .ok (before, state) ∧
          decodeTlv type value state = .ok (entry, after) ∧
          packet.tlvs = before ++ (entry.toList ++ later) ∧
          ∀ unknown body, UnknownMandatory unknown → body.length < 256 →
            (value ++ (Frame.tlv unknown body).bytes).length < 256 →
            (frameBytes (front ++
              .tlv type (value ++ (Frame.tlv unknown body).bytes) :: back)).length ≤ 65535 →
            decodePacket (assemble (front ++
              .tlv type (value ++ (Frame.tlv unknown body).bytes) :: back) trailer) context =
              .ok ⟨before ++ later⟩ := by
  obtain ⟨written, trailer, final, rfl, writable, -, decoded⟩ := decodePacket_accepts.mp accepted
  refine ⟨written, trailer, rfl, writable, ?_⟩
  rintro front type value back rfl structured
  obtain ⟨before, state, rest, first, remaining, tlvs⟩ := decodeFrames_append_ok.mp decoded
  obtain ⟨entry, after, later, own, following, rfl⟩ := decodeFrames_cons_ok.mp remaining
  refine ⟨before, state, entry, after, later, first, own, tlvs, ?_⟩
  intro unknown body mandatory sized longer fits
  have proper : unknown ≠ 0 := by
    rintro rfl
    exact absurd mandatory (by unfold UnknownMandatory; decide)
  refine decodePacket_accepts.mpr ⟨_, trailer, final, rfl, ?_, fits, ?_⟩
  · intro frame member
    obtain earlier | rfl | behind := by
      simpa only [List.mem_append, List.mem_cons] using member
    · exact writable frame (by simp [earlier])
    · exact ⟨(writable (.tlv type value) (by simp)).1, longer⟩
    · exact writable frame (by simp [behind])
  · -- the frames behind the TLV start from the context it left before
    refine decodeFrames_append_ok.mpr ⟨before, state, later, first, ?_, rfl⟩
    exact decodeFrames_cons_ok.mpr ⟨none, after, later,
      decodeTlv_mandatory structured mandatory ⟨proper, sized⟩ own, following, rfl⟩

/-- A router-id and an acknowledgment; a sub-TLV of type 200 discards the router-id. -/
theorem router_id_is_removable :
    decodePacket (assemble [.tlv TLV_ROUTER_ID [0, 0, 1, 2, 3, 4, 5, 6, 7, 8, 200, 0],
      .tlv TLV_ACK [0, 9]] []) ⟨.v4 0⟩ = .ok ⟨[.ack 9]⟩ := by
  have accepted : decodePacket (assemble [.tlv TLV_ROUTER_ID [0, 0, 1, 2, 3, 4, 5, 6, 7, 8],
      .tlv TLV_ACK [0, 9]] []) ⟨.v4 0⟩ =
        .ok ⟨[.routerId ⟨0x0102030405060708, by decide, by decide⟩, .ack 9]⟩ := by
    decide +kernel
  obtain ⟨written, trailer, same, writable, removes⟩ := mandatory_sub_tlv_removes_its_tlv accepted
  have allWritable : ∀ frame ∈ [Frame.tlv TLV_ROUTER_ID [0, 0, 1, 2, 3, 4, 5, 6, 7, 8],
      .tlv TLV_ACK [0, 9]], frame.Writable := by
    simp only [List.forall_mem_cons]
    exact ⟨by decide, by decide, by simp⟩
  obtain ⟨rfl, rfl⟩ := assemble_inj allWritable writable (by decide +kernel) same
  obtain ⟨before, state, entry, after, later, first, own, tlvs, removed⟩ :=
    removes [] TLV_ROUTER_ID _ _ rfl ⟨by decide, by decide⟩
  cases first
  obtain rfl : entry = some (.routerId ⟨0x0102030405060708, by decide, by decide⟩) :=
    (congrArg Prod.fst (Except.ok.inj own)).symm
  obtain rfl : [.ack 9] = later := (List.cons.inj tlvs).2
  exact removed 200 [] (by unfold UnknownMandatory; decide) (by decide) (by decide)
    (by decide +kernel)

end BabelRs.Wire
