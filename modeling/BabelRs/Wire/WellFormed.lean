import BabelRs.Engine.Api
import BabelRs.Wire.Discard

/-!
# What the engine may expect of a decoded packet

The engine does not look at received TLVs again: keys are canonical, intervals and hop
counts are positive, a finite Update has its origin and a next hop of the right family.
All of it follows from the fields of each TLV and from one invariant of the packet
context, the families of its two next hops.
-/

set_option autoImplicit false

namespace BabelRs

/-! ## Canonical keys -/

namespace IpNet

theorem trunc_trunc (net : IpNet) : net.trunc.trunc = net.trunc := by
  cases net <;> simp only [trunc, BitVec.and_assoc, BitVec.and_self]

@[simp] theorem isIpv4_trunc (net : IpNet) : net.trunc.isIpv4 = net.isIpv4 := by
  cases net <;> rfl

@[simp] theorem prefixLen_trunc (net : IpNet) : net.trunc.prefixLen = net.prefixLen := by
  cases net <;> rfl

end IpNet

theorem RouteKey.new_valid {destination : IpNet} {source : Option IpNet} {key : RouteKey}
    (made : RouteKey.new destination source = some key) :
    key.validate = .ok () ∧ key.destination.isIpv4 = destination.isIpv4 := by
  unfold RouteKey.new at made
  split at made
  · cases made
  · rename_i families
    obtain rfl := Option.some.inj made
    refine ⟨?_, destination.isIpv4_trunc⟩
    rw [RouteKey.validate, if_pos]
    cases source with
    | none => simp [RouteKey.new, IpNet.trunc_trunc]
    | some net =>
      simp only [Option.any_some, bne_iff_ne, ne_eq, not_not] at families
      by_cases empty : net.prefixLen = 0
      · simp [RouteKey.new, Option.filter, empty, IpNet.trunc_trunc]
      · simp [RouteKey.new, Option.filter, empty, families, IpNet.trunc_trunc]

/-! ## Well-formed TLVs -/

structure ResolvedUpdate.WellFormed (update : ResolvedUpdate) : Prop where
  interval : update.intervalCs ≠ 0
  key : ∀ key ∈ update.key, key.validate = .ok ()
  finite : update.metric ≠ INFINITY → ∃ key routerId nextHop, update.key = some key ∧
    update.routerId = some routerId ∧ update.nextHop = some nextHop ∧
    (nextHop.isIpv6 = true ↔ key.destination.isIpv4 = false ∨ update.v4ViaV6 = true)
  retraction : update.metric = INFINITY → update.nextHop = none
  viaV6 : update.v4ViaV6 = true → ∃ key, update.key = some key ∧ key.destination.isIpv4 = true

def Tlv.WellFormed : Tlv → Prop
  | .ackRequest _ intervalCs => intervalCs ≠ 0
  | .ihu _ _ intervalCs _ => intervalCs ≠ 0
  | .update resolved => resolved.WellFormed
  | .routeRequest asked _ => ∀ key ∈ asked, key.validate = .ok ()
  | .seqnoRequest key _ hopCount _ _ => key.validate = .ok () ∧ hopCount ≠ 0
  | _ => True

namespace Wire

open Lib Lib.Checked

/-! ## Next hops of the context -/

/-- Each next hop of the context has its family. -/
structure ParserState.Families (state : ParserState) : Prop where
  v4 : ∀ address ∈ state.nextHopV4, address.isIpv4 = true
  v6 : ∀ address ∈ state.nextHopV6, address.isIpv4 = false

theorem families_new (source : IpAddr) : (ParserState.new source).Families := by
  constructor <;> intro address found <;> cases source <;>
    simp_all [ParserState.new, IpAddr.isIpv4] <;> subst found <;> rfl

variable {state : ParserState}

theorem families_setNextHop (families : state.Families) (address : IpAddr) :
    (state.setNextHop address).Families := by
  unfold ParserState.setNextHop
  split
  · rename_i family
    exact ⟨by simpa using family, families.v6⟩
  · rename_i family
    exact ⟨families.v4, by simpa using family⟩

theorem families_absorbed (families : state.Families) (fields : UpdateFields) (net : IpNet) :
    (absorbed fields net state).Families :=
  ⟨families.v4, families.v6⟩

/-! ## TLVs -/

def SubContext.AllowsSource : SubContext → Prop
  | .prefixed ae => ae ≠ .wildcard
  | _ => False

structure Reading.Sound (type : UInt8) (value : List UInt8) (reading : Reading) : Prop where
  rest : reading.rest = value.drop (fieldsLength type value)
  source : reading.context.AllowsSource → HasPrefix type value
  families : reading.after.Families
  finish : ∀ sub tlv, reading.finish sub = .ok (some tlv) → tlv.WellFormed

def Plan.Sound (type : UInt8) (value : List UInt8) : Plan → Prop
  | .skip => True
  | .whole tlv => tlv.WellFormed ∧ ¬ Structured type
  | .read reading => reading.Sound type value

variable {type : UInt8}

section Fields
variable {value : List UInt8} {state : ParserState} {plan : Plan}

theorem sound_plain {rest : List UInt8} {context : SubContext} {finish : List SubTlv → Tlv}
    (behind : rest = value.drop (fieldsLength type value)) (bare : ¬ context.AllowsSource)
    (families : state.Families) (formed : ∀ subTlvs, (finish subTlvs).WellFormed) :
    (Plan.plain rest context state finish).Sound type value := by
  refine ⟨behind, fun allowed => absurd allowed bare, families, ?_⟩
  intro sub tlv finished
  obtain rfl : finish sub.values = tlv := by
    simpa using finished
  exact formed sub.values

theorem wellFormed_resolveUpdate {fields : UpdateFields} {net : IpNet} {source : Option IpNet}
    {key : RouteKey} {subTlvs : List SubTlv} {tlv : Tlv} (interval : fields.intervalCs ≠ 0)
    (family : net.isIpv4 = true ↔ fields.ae = .ipv4 ∨ fields.ae = .ipv4ViaIpv6)
    (made : RouteKey.new net source = some key) (families : state.Families)
    (resolved : resolveUpdate fields key net state subTlvs = some tlv) : tlv.WellFormed := by
  obtain ⟨valid, same⟩ := RouteKey.new_valid made
  have own : ∀ other ∈ some key, other.validate = .ok () := by
    rintro _ ⟨⟩
    exact valid
  have via : decide (fields.ae = .ipv4ViaIpv6) = true →
      ∃ other, some key = some other ∧ other.destination.isIpv4 = true := by
    intro viaV6
    exact ⟨key, rfl, same.trans (family.mpr (.inr (of_decide_eq_true viaV6)))⟩
  unfold resolveUpdate at resolved
  split at resolved
  · rename_i infinite
    cases resolved
    exact ⟨interval, own, fun finite => absurd infinite finite, fun _ => rfl, via⟩
  · rename_i finite
    obtain ⟨routerId, -, rest⟩ := Option.bind_eq_some_iff.mp resolved
    split at rest
    · rename_i six
      obtain ⟨nextHop, found, last⟩ := Option.bind_eq_some_iff.mp rest
      cases last
      refine ⟨interval, own, fun _ => ⟨key, routerId, nextHop, rfl, rfl, rfl, ?_⟩,
        fun infinite => absurd infinite finite, via⟩
      have hop := families.v6 nextHop found
      simp only [same, IpAddr.isIpv6, hop, Bool.not_false, true_iff]
      rcases six with viaV6 | prefixed
      · exact .inr viaV6
      · exact .inl (by simpa using prefixed)
    · rename_i four
      obtain ⟨nextHop, found, last⟩ := Option.bind_eq_some_iff.mp rest
      cases last
      refine ⟨interval, own, fun _ => ⟨key, routerId, nextHop, rfl, rfl, rfl, ?_⟩,
        fun infinite => absurd infinite finite, via⟩
      have hop := families.v4 nextHop found
      simp only [not_or] at four
      simp only [same, IpAddr.isIpv6, hop, Bool.not_true, Bool.false_eq_true, false_iff, not_or]
      exact ⟨by simpa using four.2, four.1⟩

theorem wellFormed_unlessMandatory {discarded : Bool} {tlv result : Tlv} (formed : tlv.WellFormed)
    (kept : unlessMandatory discarded tlv = some result) : result.WellFormed := by
  unfold unlessMandatory at kept
  split at kept
  · cases kept
  · cases kept
    exact formed

theorem sound_request {own : UInt8} {ae : AddressEncoding} {net : IpNet}
    {finish : RouteKey → List SubTlv → Tlv} (about : HasPrefix type value)
    (families : state.Families)
    (formed : ∀ key subTlvs, key.validate = .ok () → (finish key subTlvs).WellFormed) :
    (Reading.ofRequest own ae net (value.drop (fieldsLength type value)) state finish).Sound
      type value := by
  refine ⟨rfl, fun _ => about, families, ?_⟩
  intro sub tlv finished
  obtain ⟨key, made, last⟩ := bind_eq_ok.mp finished
  cases last
  exact formed key _ (RouteKey.new_valid (orFail_eq_ok.mp made)).1

theorem sound_planTlv (families : state.Families) (planned : planTlv type value state = .ok plan) :
    plan.Sound type value := by
  cases planTlv_planned planned with
  | skip => trivial
  | whole bare same => exact ⟨by rcases same with rfl | rfl <;> trivial, bare⟩
  | ackRequest nonce intervalCs interval => exact sound_plain rfl id families fun _ => interval
  | ack nonce => exact sound_plain rfl id families fun _ => trivial
  | hello unicast seqno intervalCs own => exact sound_plain rfl id families fun _ => trivial
  | ihu address rxcost intervalCs interval => exact sound_plain rfl id families fun _ => interval
  | routerId id => exact sound_plain rfl (fun no => no) ⟨families.v4, families.v6⟩ fun _ => trivial
  | nextHop address =>
    exact sound_plain rfl id (families_setNextHop families address) fun _ => trivial
  | retractAll intervalCs seqno metric interval infinite =>
    refine ⟨rfl, fun allowed => absurd rfl allowed, families, ?_⟩
    intro sub tlv finished
    refine wellFormed_unlessMandatory ?_ (Except.ok.inj finished)
    exact ⟨interval, fun _ none => (by cases none), fun finite => absurd infinite finite,
      fun _ => rfl, fun via => (by cases via)⟩
  | update fields net own interval about family =>
    refine ⟨rfl, fun _ => about, families_absorbed families fields net, ?_⟩
    intro sub tlv finished
    obtain ⟨key, made, resolved⟩ := bind_eq_ok.mp finished
    exact wellFormed_resolveUpdate interval family (orFail_eq_ok.mp made)
      (families_absorbed families fields net) (Except.ok.inj resolved)
  | requestAll =>
    refine ⟨rfl, fun allowed => absurd rfl allowed, families, ?_⟩
    intro sub tlv finished
    refine wellFormed_unlessMandatory ?_ (Except.ok.inj finished)
    rintro _ ⟨⟩
  | routeRequest ae net about =>
    refine sound_request about families ?_
    rintro key subTlvs valid _ ⟨⟩
    exact valid
  | seqnoRequest ae net seqno hopCount id about hops =>
    exact sound_request about families fun key subTlvs valid => ⟨valid, hops⟩

end Fields

/-! ## Sub-TLVs that discard -/

/-- A sub-TLV nothing can be read from in this context, that must be understood. -/
def Forbidden (context : SubContext) : Frame → Prop
  | .pad1 => False
  | .tlv type _ => UnknownMandatory type ∨ type = SUBTLV_SOURCE_PREFIX ∧ ¬ context.AllowsSource

section SubTlvs
variable {context : SubContext} {destination : Option IpNet} {sub next : DecodedSubTlvs}
  {frame : Frame}

theorem refused_stays (decoded : decodeSubTlv context destination sub frame = .ok next)
    (refused : sub.mandatoryUnknown = true) : next.mandatoryUnknown = true := by
  cases frame with
  | pad1 =>
    cases decoded
    exact refused
  | tlv type body =>
    simp only [decodeSubTlv] at decoded
    split at decoded
    · cases decoded
      exact refused
    split at decoded
    · obtain ⟨value, -, last⟩ := bind_eq_ok.mp decoded
      cases last
      exact refused
    split at decoded
    · obtain ⟨net, -, last⟩ := bind_eq_ok.mp decoded
      cases net with
      | none =>
        cases last
        rfl
      | some net =>
        cases last
        exact refused
    · cases decoded
      split
      · rfl
      · exact refused

theorem forbidden_refuses (forbidden : Forbidden context frame)
    (decoded : decodeSubTlv context destination sub frame = .ok next) :
    next.mandatoryUnknown = true := by
  cases frame with
  | pad1 => exact absurd forbidden id
  | tlv type body =>
    rcases forbidden with mandatory | ⟨rfl, bare⟩
    · rw [decodeSubTlv_mandatory mandatory] at decoded
      cases decoded
      rfl
    · have nothing : decodeSourcePrefix context destination sub body = .ok none := by
        cases context with
        | hello => rfl
        | ihu => rfl
        | prefixed ae =>
          simp only [SubContext.AllowsSource, ne_eq, not_not] at bare
          simp only [decodeSourcePrefix, if_pos (Or.inr (Or.inl bare))]
      have refuses : decodeSubTlv context destination sub (.tlv SUBTLV_SOURCE_PREFIX body) =
          .ok sub.refuse := by
        rw [decodeSubTlv, if_neg (by decide), if_neg (by decide), if_pos rfl, nothing]
        rfl
      rw [refuses] at decoded
      cases decoded
      rfl

/-- One forbidden sub-TLV is enough, wherever it stands. -/
theorem foldlM_forbidden {written : List Frame} (found : sub.mandatoryUnknown = true ∨
      ∃ frame ∈ written, Forbidden context frame)
    (folded : written.foldlM (decodeSubTlv context destination) sub = .ok next) :
    next.mandatoryUnknown = true := by
  induction written generalizing sub with
  | nil =>
    cases folded
    simpa using found
  | cons frame rest ih =>
    obtain ⟨middle, first, later⟩ := bind_eq_ok.mp folded
    refine ih ?_ later
    rcases found with refused | ⟨other, member, forbidden⟩
    · exact .inl (refused_stays first refused)
    · rcases List.mem_cons.mp member with rfl | behind
      · exact .inl (forbidden_refuses forbidden first)
      · exact .inr ⟨other, behind, forbidden⟩

end SubTlvs

/-- The TLV carries, behind its fields, a sub-TLV of unknown mandatory type, or a source prefix
though it is not about a prefix. -/
def CarriesForbidden (type : UInt8) (value : List UInt8) : Prop :=
  ∃ sub body, .tlv sub body ∈ (frames (value.drop (fieldsLength type value))).frames ∧
    (UnknownMandatory sub ∨ sub = SUBTLV_SOURCE_PREFIX ∧ ¬ HasPrefix type value)

/-! ## Packets -/

variable {after : ParserState}

theorem run_sound {value : List UInt8} {plan : Plan} {entry : Option Tlv}
    (families : state.Families) (sound : plan.Sound type value)
    (ran : plan.run state = .ok (entry, after)) :
    after.Families ∧ (∀ tlv ∈ entry, tlv.WellFormed) ∧
      (Structured type → CarriesForbidden type value → entry = none) := by
  cases plan with
  | skip =>
    cases ran
    exact ⟨families, fun _ none => (by cases none), fun _ _ => rfl⟩
  | whole tlv =>
    cases ran
    refine ⟨families, ?_, fun structured => absurd structured sound.2⟩
    rintro _ ⟨⟩
    exact sound.1
  | read reading =>
    obtain ⟨sub, decoded, finished⟩ := bind_eq_ok.mp ran
    split at finished
    · cases finished
      exact ⟨sound.families, fun _ none => (by cases none), fun _ _ => rfl⟩
    · rename_i kept
      obtain ⟨result, own, last⟩ := bind_eq_ok.mp finished
      cases last
      refine ⟨sound.families, ?_, ?_⟩
      · rintro tlv ⟨⟩
        exact sound.finish sub tlv own
      · rintro - ⟨type, body, member, forbidden⟩
        rw [← sound.rest] at member
        refine absurd (foldlM_forbidden (.inr ⟨_, member, ?_⟩)
          (decodeSubTlvs_eq_ok.mp decoded).2) kept
        exact forbidden.imp_right fun bare => ⟨bare.1, fun allowed => bare.2 (sound.source allowed)⟩

theorem decodeOne_sound {frame : Frame} {entry : Option Tlv} (families : state.Families)
    (decoded : decodeOne frame state = .ok (entry, after)) :
    after.Families ∧ (∀ tlv ∈ entry, tlv.WellFormed) ∧
      ∀ type value, frame = .tlv type value → Structured type → CarriesForbidden type value →
        entry = none := by
  cases frame with
  | pad1 =>
    cases decoded
    refine ⟨families, ?_, fun _ _ same => (by cases same)⟩
    rintro _ ⟨⟩
    trivial
  | tlv type value =>
    simp only [decodeOne, decodeTlv_eq] at decoded
    obtain ⟨plan, planned, ran⟩ := bind_eq_ok.mp decoded
    obtain ⟨kept, formed, discarded⟩ := run_sound families (sound_planTlv families planned) ran
    refine ⟨kept, formed, ?_⟩
    rintro _ _ ⟨⟩
    exact discarded

theorem decodeFrames_sound {written : List Frame} {tlvs : List Tlv} (families : state.Families)
    (decoded : decodeFrames written state = .ok (tlvs, after)) :
    after.Families ∧ ∀ tlv ∈ tlvs, tlv.WellFormed := by
  induction written generalizing state tlvs with
  | nil =>
    cases decoded
    exact ⟨families, by simp⟩
  | cons frame rest ih =>
    obtain ⟨entry, middle, later, first, following, rfl⟩ := decodeFrames_cons_ok.mp decoded
    obtain ⟨kept, formed, -⟩ := decodeOne_sound families first
    obtain ⟨final, others⟩ := ih kept following
    refine ⟨final, ?_⟩
    intro tlv member
    rcases List.mem_append.mp member with own | behind
    · exact formed tlv (Option.mem_toList.mp own)
    · exact others tlv behind

/-- What every accepted packet gives the engine, and which of its TLVs are missing from it. -/
theorem decoded_packets_are_well_formed {data : List UInt8} {context : DecodeContext}
    {packet : Packet} (accepted : decodePacket data context = .ok packet) :
    (∀ tlv ∈ packet.tlvs, tlv.WellFormed) ∧
      ∃ written trailer, data = assemble written trailer ∧ (∀ frame ∈ written, frame.Writable) ∧
        ∀ front type value back, written = front ++ .tlv type value :: back → Structured type →
          CarriesForbidden type value →
          ∃ before state after later final,
            decodeFrames front (.new context.source) = .ok (before, state) ∧
            decodeTlv type value state = .ok (none, after) ∧
            decodeFrames back after = .ok (later, final) ∧ packet.tlvs = before ++ later := by
  obtain ⟨written, trailer, final, rfl, writable, -, decoded⟩ := decodePacket_accepts.mp accepted
  refine ⟨(decodeFrames_sound (families_new _) decoded).2, written, trailer, rfl, writable, ?_⟩
  rintro front type value back rfl structured carries
  obtain ⟨before, state, rest, first, remaining, tlvs⟩ := decodeFrames_append_ok.mp decoded
  obtain ⟨entry, after, later, own, following, rfl⟩ := decodeFrames_cons_ok.mp remaining
  have families := (decodeFrames_sound (families_new _) first).1
  obtain rfl := (decodeOne_sound families own).2.2 type value rfl structured carries
  exact ⟨before, state, after, later, final, first, own, following, tlvs⟩

/-- A router-id, an Update of finite metric, and an acknowledgment request that its sub-TLV of
type 200 discards. -/
def discardedRequest : List Frame :=
  [.tlv TLV_ROUTER_ID [0, 0, 1, 2, 3, 4, 5, 6, 7, 8],
    .tlv TLV_UPDATE [2, 0, 16, 0, 0, 1, 0, 1, 0, 10, 0x20, 1],
    .tlv TLV_ACK_REQ [0, 0, 0, 7, 0, 1, 200, 0]]

theorem finite_update_is_well_formed :
    let update : Tlv := .update ⟨some ⟨.v6 0x20010000000000000000000000000000 16, none⟩,
      some ⟨0x0102030405060708, by decide, by decide⟩, some (.v6 1), 1, 1, 10, false, []⟩
    update.WellFormed ∧ ∃ before state after later final,
      decodeFrames (discardedRequest.take 2) (.new (.v6 1)) = .ok (before, state) ∧
        decodeTlv TLV_ACK_REQ [0, 0, 0, 7, 0, 1, 200, 0] state = .ok (none, after) ∧
        decodeFrames [] after = .ok (later, final) ∧
        [.routerId ⟨0x0102030405060708, by decide, by decide⟩, update] = before ++ later := by
  intro update
  have accepted : decodePacket (assemble discardedRequest []) ⟨.v6 1⟩ =
      .ok ⟨[.routerId ⟨0x0102030405060708, by decide, by decide⟩, update]⟩ := by
    decide +kernel
  obtain ⟨formed, written, trailer, same, writable, discards⟩ :=
    decoded_packets_are_well_formed accepted
  have allWritable : ∀ frame ∈ discardedRequest, frame.Writable := by
    simp only [discardedRequest, List.forall_mem_cons]
    exact ⟨by decide, by decide, by decide, by simp⟩
  obtain ⟨rfl, -⟩ := assemble_inj allWritable writable (by decide +kernel) same
  refine ⟨formed update (by simp), discards _ TLV_ACK_REQ _ [] rfl ?_ ?_⟩
  · exact ⟨by decide, by decide⟩
  · exact ⟨200, [], by decide +kernel, .inl (by unfold UnknownMandatory; decide)⟩

end Wire

end BabelRs
