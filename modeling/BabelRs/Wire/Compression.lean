import BabelRs.Wire.Body
import BabelRs.Wire.Planned

/-!
# Prefix compression is an abbreviation

An Update may leave out the first octets of its prefix and take them from the latest
Update of its encoding that set the default prefix.  Writing these octets out changes
nothing, because the context holds exactly that prefix, with its implicit zeroes.
-/

set_option autoImplicit false

namespace BabelRs.Wire

open Lib Lib.Checked

/-! ## The default prefix -/

/-- The encodings whose prefixes can be compressed. -/
def Compressible (ae : AddressEncoding) : Prop := ae = .ipv4 ∨ ae = .ipv6 ∨ ae = .ipv4ViaIpv6

/-- The prefix of an Update that sets the default prefix of an encoding. -/
def announced (ae : AddressEncoding) (state : ParserState) : Frame → Option IpNet
  | .tlv type (encoding :: flags :: plen :: omitted :: _ :: _ :: _ :: _ :: _ :: _ :: rest) =>
    if type = TLV_UPDATE ∧ AddressEncoding.fromU8 encoding = some ae ∧ flags &&& 0x80 ≠ 0 then
      prefixOf ae plen.toNat omitted.toNat rest (state.prefixes.get? ae)
    else none
  | _ => none

/-- The latest such prefix, in the frames read so far. -/
def latestPrefix (ae : AddressEncoding) :
    List Frame → ParserState → Option IpNet → Option IpNet
  | [], _, latest => latest
  | frame :: rest, state, latest =>
    match decodeOne frame state with
    | .ok (_, next) => latestPrefix ae rest next ((announced ae state frame).or latest)
    | .error _ => latest

theorem length_defaultPrefix (ae : AddressEncoding) (net : IpNet) :
    (defaultPrefix ae net).length = ae.addressLen.getD 0 := by
  simp only [defaultPrefix, List.length_append, List.length_take, List.length_replicate]
  omega

/-! ## What a TLV leaves of the prefixes -/

def Plan.leaves (state : ParserState) : Plan → ParserState
  | .skip => state
  | .whole _ => state
  | .read reading => reading.after

variable {state after : ParserState} {plan : Plan}

theorem run_leaves {entry : Option Tlv} (ran : plan.run state = .ok (entry, after)) :
    after = plan.leaves state := by
  cases plan with
  | skip =>
    cases ran
    rfl
  | whole tlv =>
    cases ran
    rfl
  | read reading =>
    obtain ⟨sub, -, finished⟩ := bind_eq_ok.mp ran
    split at finished
    · cases finished
      rfl
    · obtain ⟨_, -, last⟩ := bind_eq_ok.mp finished
      cases last
      rfl

theorem prefixes_setNextHop (state : ParserState) (address : IpAddr) :
    (state.setNextHop address).prefixes = state.prefixes := by
  unfold ParserState.setNextHop
  split <;> rfl

variable {value : List UInt8}

theorem prefixes_planTlv {type : UInt8} (other : type ≠ TLV_UPDATE)
    (planned : planTlv type value state = .ok plan) :
    (plan.leaves state).prefixes = state.prefixes := by
  cases planTlv_planned planned with
  | nextHop address => exact prefixes_setNextHop state address
  | update fields net own => exact absurd own other
  | _ => rfl

/-! ## The context holds the latest prefix -/

variable {ae : AddressEncoding} {size : Nat}

/-- Octets behind the prefix do not matter. -/
theorem prefixOf_take {plen : Nat} (omitted : Nat) {rest : List UInt8}
    (previous : Option (List UInt8)) (encoded : prefixEncodedLen ae plen = some size)
    (fits : size - omitted ≤ rest.length) :
    prefixOf ae plen omitted (rest.take (size - omitted)) previous =
      prefixOf ae plen omitted rest previous := by
  have cut : (rest.take (size - omitted)).length < size - omitted ↔
      rest.length < size - omitted := by
    rw [List.length_take]
    omega
  simp only [prefixOf, encoded, Option.bind_eq_bind, Option.bind_some, cut, List.take_take,
    Nat.min_self]

section Step
variable {ae : AddressEncoding} {state : ParserState}

theorem prefixes_absorbed (fields : UpdateFields) (net : IpNet) :
    (absorbed fields net state).prefixes.get? ae =
      if fields.ae = ae ∧ fields.flags &&& 0x80 ≠ 0 then some (defaultPrefix ae net)
      else state.prefixes.get? ae := by
  simp only [absorbed]
  by_cases sets : fields.flags &&& 0x80 = 0
  · simp [sets]
  · by_cases same : fields.ae = ae
    · subst same
      simp [sets]
    · simp [sets, same, AssocMap.get?_insert_of_ne _ _ same]

theorem prefixes_update (compressible : Compressible ae)
    (planned : planUpdate value state = .ok plan) :
    (plan.leaves state).prefixes.get? ae =
      ((announced ae state (.tlv TLV_UPDATE value)).map (defaultPrefix ae)).or
        (state.prefixes.get? ae) := by
  have spelled : ae ≠ .wildcard ∧ ae ≠ .ipv6LinkLocal := by
    rcases compressible with rfl | rfl | rfl <;> decide
  unfold planUpdate at planned
  split at planned
  · rename_i e flags plen omitted i0 i1 s0 s1 m0 m1 rest
    simp only [announced, true_and]
    split at planned
    · rename_i unknown
      cases planned
      simp [unknown, Plan.leaves]
    · rename_i own known
      simp only [known, Option.some.injEq]
      unfold planUpdateFields at planned
      split at planned
      · cases planned
      split at planned
      · rename_i wild
        subst wild
        cases planned
        rw [if_neg fun sets => spelled.1 sets.1.symm]
        unfold planWildcardUpdate
        split <;> rfl
      split at planned
      · rename_i linkLocal
        cases planned
        rw [if_neg fun sets => spelled.2 (sets.1.symm.trans linkLocal.1)]
        rfl
      · unfold planPrefixUpdate at planned
        split at planned
        · cases planned
        · rename_i size encoded
          simp only at planned encoded
          split at planned
          · cases planned
          · rename_i whole
            rw [prefixOf_take _ _ encoded (not_lt.mp (not_or.mp whole).2)] at planned
            split at planned
            · rename_i missing
              cases planned
              by_cases sets : own = ae ∧ flags &&& 0x80 ≠ 0
              · obtain ⟨rfl, flagged⟩ := sets
                rw [if_pos ⟨rfl, flagged⟩, missing]
                rfl
              · rw [if_neg sets]
                rfl
            · rename_i net decoded
              cases planned
              simp only [Plan.leaves, Reading.ofUpdate, prefixes_absorbed]
              by_cases sets : own = ae ∧ flags &&& 0x80 ≠ 0
              · obtain ⟨rfl, flagged⟩ := sets
                rw [if_pos ⟨rfl, flagged⟩, if_pos ⟨rfl, flagged⟩, decoded]
                rfl
              · rw [if_neg sets, if_neg sets]
                rfl
  · cases planned

theorem announced_other {type : UInt8} (other : type ≠ TLV_UPDATE) :
    announced ae state (.tlv type value) = none := by
  unfold announced
  split
  · rename_i same
    cases same
    rw [if_neg fun sets => other sets.1]
  · rfl

theorem prefixes_decodeOne {frame : Frame} {entry : Option Tlv} (compressible : Compressible ae)
    (decoded : decodeOne frame state = .ok (entry, after)) :
    after.prefixes.get? ae =
      ((announced ae state frame).map (defaultPrefix ae)).or (state.prefixes.get? ae) := by
  cases frame with
  | pad1 =>
    cases decoded
    rfl
  | tlv type value =>
    simp only [decodeOne, decodeTlv_eq] at decoded
    obtain ⟨plan, planned, ran⟩ := bind_eq_ok.mp decoded
    obtain rfl := run_leaves ran
    by_cases update : type = TLV_UPDATE
    · subst update
      exact prefixes_update compressible planned
    · rw [prefixes_planTlv update planned, announced_other update]
      rfl

end Step

theorem prefixes_decodeFrames {written : List Frame} {tlvs : List Tlv} {latest : Option IpNet}
    (compressible : Compressible ae) (held : state.prefixes.get? ae = latest.map (defaultPrefix ae))
    (decoded : decodeFrames written state = .ok (tlvs, after)) :
    after.prefixes.get? ae = (latestPrefix ae written state latest).map (defaultPrefix ae) := by
  induction written generalizing state tlvs latest with
  | nil =>
    cases decoded
    exact held
  | cons frame rest ih =>
    obtain ⟨entry, middle, later, first, following, -⟩ := decodeFrames_cons_ok.mp decoded
    rw [latestPrefix, first]
    refine ih ?_ following
    rw [prefixes_decodeOne compressible first, held]
    cases announced ae state frame <;> rfl

/-! ## Writing the octets out -/

theorem prefixOf_spelled {plen omitted : Nat} {rest default : List UInt8}
    (previous : Option (List UInt8)) (encoded : prefixEncodedLen ae plen = some size)
    (few : omitted ≤ size) (positive : 0 < omitted) (long : omitted ≤ default.length) :
    prefixOf ae plen 0 (default.take omitted ++ rest) previous =
      prefixOf ae plen omitted rest (some default) := by
  have taken : (default.take omitted).length = omitted := by
    rw [List.length_take, Nat.min_eq_left long]
  have short : (default.take omitted ++ rest).length < size ↔ rest.length < size - omitted := by
    rw [List.length_append, taken]
    omega
  have front : (default.take omitted ++ rest).take size =
      default.take omitted ++ rest.take (size - omitted) := by
    rw [List.take_append, taken, List.take_of_length_le (by omega)]
  have reused : reusedOctets omitted (some default) = some (default.take omitted) := by
    simp only [reusedOctets, if_neg (Nat.ne_of_gt positive), Option.bind_some, if_pos long]
  have nothing : reusedOctets 0 previous = some [] := rfl
  simp only [prefixOf, encoded, Option.bind_eq_bind, Option.bind_some, short, reused, nothing,
    Nat.not_lt_zero, false_or, not_lt.mpr few, Nat.sub_zero, front, List.nil_append]

theorem planPrefixUpdate_spelled (fields : UpdateFields) (rest : List UInt8) {default : List UInt8}
    (encoded : prefixEncodedLen fields.ae fields.plen = some size) (few : fields.omitted ≤ size)
    (positive : 0 < fields.omitted) (long : fields.omitted ≤ default.length)
    (held : state.prefixes.get? fields.ae = some default) :
    planPrefixUpdate { fields with omitted := 0 } (default.take fields.omitted ++ rest) state =
      planPrefixUpdate fields rest state := by
  have taken : (default.take fields.omitted).length = fields.omitted := by
    rw [List.length_take, Nat.min_eq_left long]
  simp only [planPrefixUpdate, encoded, Nat.not_lt_zero, false_or, not_lt.mpr few]
  by_cases short : rest.length < size - fields.omitted
  · rw [if_pos short, if_pos (by rw [List.length_append, taken]; omega)]
  · have fits : size - 0 ≤ (default.take fields.omitted ++ rest).length := by
      rw [List.length_append, taken]
      omega
    have behind : (default.take fields.omitted ++ rest).drop (size - 0) =
        rest.drop (size - fields.omitted) := by
      rw [Nat.sub_zero, List.drop_append, taken, List.drop_of_length_le (by omega),
        List.nil_append]
    rw [if_neg short, if_neg (not_lt.mpr fits), prefixOf_take 0 _ encoded fits,
      prefixOf_take _ _ encoded (not_lt.mp short),
      prefixOf_spelled _ encoded few positive long, held, behind]
    cases prefixOf fields.ae fields.plen fields.omitted rest (some default) <;> rfl

theorem decodeTlv_spelled {encoding plen omitted : UInt8} (flags i0 i1 s0 s1 m0 m1 : UInt8)
    (rest : List UInt8) {net : IpNet} (known : AddressEncoding.fromU8 encoding = some ae)
    (compressible : Compressible ae) (positive : 0 < omitted.toNat)
    (encoded : prefixEncodedLen ae plen.toNat = some size) (few : omitted.toNat ≤ size)
    (held : state.prefixes.get? ae = some (defaultPrefix ae net)) :
    decodeTlv TLV_UPDATE (encoding :: flags :: plen :: 0 :: i0 :: i1 :: s0 :: s1 :: m0 :: m1 ::
        ((defaultPrefix ae net).take omitted.toNat ++ rest)) state =
      decodeTlv TLV_UPDATE (encoding :: flags :: plen :: omitted :: i0 :: i1 :: s0 :: s1 :: m0 ::
        m1 :: rest) state := by
  have spelled : ae ≠ .wildcard ∧ ae ≠ .ipv6LinkLocal := by
    rcases compressible with rfl | rfl | rfl <;> decide
  have long : omitted.toNat ≤ (defaultPrefix ae net).length := by
    obtain ⟨width, wide, fits⟩ := prefixEncodedLen_le encoded
    rw [length_defaultPrefix, wide]
    exact few.trans fits
  have same := planPrefixUpdate_spelled
    ⟨ae, flags, plen.toNat, omitted.toNat, u16 i0 i1, u16 s0 s1, u16 m0 m1⟩ rest
    encoded few positive long held
  have planned : ∀ value, planTlv TLV_UPDATE value state = planUpdate value state := fun _ => rfl
  simp only [decodeTlv_eq, planned, planUpdate, known, planUpdateFields, spelled.1, spelled.2,
    if_false, false_and]
  by_cases interval : u16 i0 i1 = 0
  · simp only [interval, if_true]
  · simp only [interval, if_false]
    exact congrArg (· >>= Plan.run state) same

/-- Any Update of an accepted packet that leaves out octets of its prefix, and the Update that
spells them out: the packet decodes to the same TLVs. -/
theorem compression_is_an_abbreviation {data : List UInt8} {context : DecodeContext}
    {packet : Packet} (accepted : decodePacket data context = .ok packet) :
    ∃ written trailer, data = assemble written trailer ∧ (∀ frame ∈ written, frame.Writable) ∧
      ∀ front back encoding flags plen omitted i0 i1 s0 s1 m0 m1 rest ae size net,
        written = front ++ .tlv TLV_UPDATE (encoding :: flags :: plen :: omitted :: i0 :: i1 ::
          s0 :: s1 :: m0 :: m1 :: rest) :: back →
        AddressEncoding.fromU8 encoding = some ae → Compressible ae →
        0 < omitted.toNat → prefixEncodedLen ae plen.toNat = some size → omitted.toNat ≤ size →
        latestPrefix ae front (.new context.source) none = some net →
        ∀ spelled, spelled = encoding :: flags :: plen :: 0 :: i0 :: i1 :: s0 :: s1 :: m0 :: m1 ::
            ((defaultPrefix ae net).take omitted.toNat ++ rest) →
          spelled.length < 256 →
          (frameBytes (front ++ .tlv TLV_UPDATE spelled :: back)).length ≤ 65535 →
          decodePacket (assemble (front ++ .tlv TLV_UPDATE spelled :: back) trailer) context =
            .ok packet := by
  obtain ⟨written, trailer, final, rfl, writable, -, decoded⟩ := decodePacket_accepts.mp accepted
  refine ⟨written, trailer, rfl, writable, ?_⟩
  rintro front back encoding flags plen omitted i0 i1 s0 s1 m0 m1 rest ae size net rfl known
    compressible positive encoded few latest spelled rfl longer fits
  obtain ⟨before, state, later, first, remaining, tlvs⟩ := decodeFrames_append_ok.mp decoded
  have start : (ParserState.new context.source).prefixes.get? ae =
      (none : Option IpNet).map (defaultPrefix ae) := rfl
  have held := prefixes_decodeFrames compressible start first
  rw [latest, Option.map_some] at held
  have same := decodeTlv_spelled flags i0 i1 s0 s1 m0 m1 rest known compressible positive
    encoded few held
  refine decodePacket_accepts.mpr ⟨_, trailer, final, rfl, ?_, fits, ?_⟩
  · intro frame member
    obtain earlier | rfl | behind := by
      simpa only [List.mem_append, List.mem_cons] using member
    · exact writable frame (by simp [earlier])
    · exact ⟨by decide, longer⟩
    · exact writable frame (by simp [behind])
  · refine decodeFrames_append_ok.mpr ⟨before, state, later, first, ?_, tlvs⟩
    rw [decodeFrames_cons] at remaining ⊢
    rw [decodeOne, same]
    exact remaining

/-- An IPv6 retraction that sets the default prefix. -/
def firstRetraction : Frame :=
  .tlv TLV_UPDATE [2, 128, 16, 0, 0, 1, 0, 1, 255, 255, 0x20, 1]

/-- A second one omits the first octet of its prefix, or spells it out. -/
theorem omitted_octet_can_be_spelled_out :
    decodePacket (assemble [firstRetraction,
        .tlv TLV_UPDATE [2, 0, 16, 0, 0, 1, 0, 1, 255, 255, 0x20, 2]] []) ⟨.v4 0⟩ =
      decodePacket (assemble [firstRetraction,
        .tlv TLV_UPDATE [2, 0, 16, 1, 0, 1, 0, 1, 255, 255, 2]] []) ⟨.v4 0⟩ := by
  have accepted : decodePacket (assemble [firstRetraction,
        .tlv TLV_UPDATE [2, 0, 16, 1, 0, 1, 0, 1, 255, 255, 2]] []) ⟨.v4 0⟩ =
      .ok ⟨[.update ⟨some ⟨.v6 0x20010000000000000000000000000000 16, none⟩, none, none, 1, 1,
          INFINITY, false, []⟩,
        .update ⟨some ⟨.v6 0x20020000000000000000000000000000 16, none⟩, none, none, 1, 1,
          INFINITY, false, []⟩]⟩ := by
    decide +kernel
  obtain ⟨written, trailer, same, writable, spelled⟩ := compression_is_an_abbreviation accepted
  have allWritable : ∀ frame ∈ [firstRetraction,
      .tlv TLV_UPDATE [2, 0, 16, 1, 0, 1, 0, 1, 255, 255, 2]], frame.Writable := by
    simp only [firstRetraction, List.forall_mem_cons]
    exact ⟨by decide, by decide, by simp⟩
  obtain ⟨rfl, rfl⟩ := assemble_inj allWritable writable (by decide +kernel) same
  rw [accepted]
  exact spelled [firstRetraction] [] 2 0 16 1 0 1 0 1 255 255 [2] .ipv6 2
    (.v6 0x20010000000000000000000000000000 16) rfl rfl (by simp [Compressible]) (by decide) rfl
    (by decide) (by decide +kernel) _ (by decide +kernel) (by decide) (by decide +kernel)

end BabelRs.Wire
