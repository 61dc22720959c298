import BabelRs.Lib.Rewrite
import BabelRs.Wire.Discard
import BabelRs.Wire.Packetizer

/-!
# Stamping a datagram

Just before a datagram is sent, a second parser walks over it and overwrites the
timestamps of its Hellos in place.  It agrees with the decoder on every datagram that
decodes: stamping succeeds, touches the timestamp octets only, and the stamped datagram
decodes to the same packet with the new timestamp.
-/

set_option autoImplicit false

namespace BabelRs

/-! ## Packets with another timestamp -/

def SubTlv.restamp (timestamp : UInt32) : SubTlv → SubTlv
  | .timestampHello _ => .timestampHello timestamp
  | other => other

def Tlv.restamp (timestamp : UInt32) : Tlv → Tlv
  | .hello unicast seqno intervalCs subTlvs =>
    .hello unicast seqno intervalCs (subTlvs.map (SubTlv.restamp timestamp))
  | .ihu address rxcost intervalCs subTlvs =>
    .ihu address rxcost intervalCs (subTlvs.map (SubTlv.restamp timestamp))
  | .update resolved =>
    .update { resolved with subTlvs := resolved.subTlvs.map (SubTlv.restamp timestamp) }
  | .routeRequest key subTlvs => .routeRequest key (subTlvs.map (SubTlv.restamp timestamp))
  | .seqnoRequest key seqno hopCount origin subTlvs =>
    .seqnoRequest key seqno hopCount origin (subTlvs.map (SubTlv.restamp timestamp))
  | other => other

/-- Every Hello timestamp of the packet replaced. -/
def Packet.restamp (timestamp : UInt32) (packet : Packet) : Packet :=
  ⟨packet.tlvs.map (Tlv.restamp timestamp)⟩

namespace Wire

open Lib Lib.Checked

/-! ## The loops of the source -/

/-- Overwrite the timestamp at `offset`. -/
def Raw.stampSubTlv (timestamp : UInt32) (type : UInt8) (data : List UInt8)
    (offset length : Nat) : Checked WireError (List UInt8) :=
  if type = SUBTLV_TIMESTAMP ∧ 4 ≤ length then
    copyFromSlice data offset (offset + 4) (be32Bytes timestamp)
  else .ok data

def Raw.stampTlv (timestamp : UInt32) (type : UInt8) (data : List UInt8)
    (offset length : Nat) : Checked WireError (List UInt8) :=
  if type = TLV_HELLO ∧ 6 ≤ length then
    rewrite (fun _ => .invalidTlv TLV_HELLO) (Raw.stampSubTlv timestamp) length data
      (offset + 6) (offset + length)
  else .ok data

def Raw.stampHelloTimestamps (data : List UInt8) (timestamp : UInt32) :
    Checked WireError (List UInt8) :=
  if data.length < 4 then fail .shortHeader
  else do
    if (← index data 0) ≠ MAGIC then fail .badMagic
    else if (← index data 1) ≠ VERSION then fail (.unsupportedVersion (← index data 1))
    else do
      let bodyLen := (← be16 (← slice data 2 4)).toNat
      if data.length < 4 + bodyLen then fail .truncatedBody
      else rewrite .truncatedTlv (Raw.stampTlv timestamp) bodyLen data 4 (4 + bodyLen)

/-! ## On values -/

def stampSubValue (timestamp : UInt32) (type : UInt8) (value : List UInt8) : List UInt8 :=
  if type = SUBTLV_TIMESTAMP ∧ 4 ≤ value.length then be32Bytes timestamp ++ value.drop 4 else value

theorem length_be32Bytes (value : UInt32) : (be32Bytes value).length = 4 := length_toBe 4 _

theorem length_stampSubValue (timestamp : UInt32) (type : UInt8) (value : List UInt8) :
    (stampSubValue timestamp type value).length = value.length := by
  unfold stampSubValue
  split
  · rw [List.length_append, length_be32Bytes, List.length_drop]
    omega
  · rfl

theorem stampSubTlv_local (timestamp : UInt32) :
    Local (Raw.stampSubTlv timestamp) fun type value =>
      .ok (stampSubValue timestamp type value) where
  edits type front value back := by
    unfold Raw.stampSubTlv stampSubValue
    by_cases stamped : type = SUBTLV_TIMESTAMP ∧ 4 ≤ value.length
    · rw [if_pos stamped, if_pos stamped, copyFromSlice, if_pos]
      · have cut : 4 - value.length = 0 := by omega
        simp [Except.map, List.drop_append, cut]
      · refine ⟨by omega, ?_, ?_⟩
        · simp
          omega
        · rw [length_be32Bytes]
          omega
    · rw [if_neg stamped, if_neg stamped]
      rfl
  length type value changed same := by
    cases same
    exact length_stampSubValue timestamp type value

theorem edit_stampSubTlv (timestamp : UInt32) (frame : Frame) :
    Frame.edit (fun type value => (.ok (stampSubValue timestamp type value) :
      Checked WireError (List UInt8))) frame = .ok (stampSubTlv timestamp frame) := by
  cases frame with
  | pad1 => rfl
  | tlv type value =>
    simp only [Frame.edit, Except.map, stampSubValue, stampSubTlv]
    split <;> rfl

/-- Errors of the source, as the decoder reports them. -/
def reported {A : Type} (result : Except WireError A) : Checked WireError A :=
  result.mapError Fault.error

def stampValue (timestamp : UInt32) (type : UInt8) (value : List UInt8) :
    Checked WireError (List UInt8) :=
  if type = TLV_HELLO ∧ 6 ≤ value.length then
    match (frames (value.drop 6)).truncated with
    | some _ => fail (.invalidTlv TLV_HELLO)
    | none => .ok (value.take 6 ++
        frameBytes ((frames (value.drop 6)).frames.map (stampSubTlv timestamp)))
  else .ok value

theorem edit_stampTlv (timestamp : UInt32) (frame : Frame) :
    Frame.edit (stampValue timestamp) frame = reported (stampTlv timestamp frame) := by
  cases frame with
  | pad1 => rfl
  | tlv type value =>
    simp only [Frame.edit, stampValue, stampTlv]
    split
    · cases (frames (value.drop 6)).truncated <;> rfl
    · rfl

theorem length_stampSubTlv (timestamp : UInt32) (frame : Frame) :
    (stampSubTlv timestamp frame).bytes.length = frame.bytes.length := by
  cases frame with
  | pad1 => rfl
  | tlv type value =>
    have same := length_stampSubValue timestamp type value
    unfold stampSubValue at same
    simp only [stampSubTlv]
    split
    · rename_i stamped
      rw [if_pos stamped] at same
      simp only [Frame.bytes, List.length_cons, same]
    · rfl

variable {written : List Frame}

theorem length_frameBytes_map {relabel : Frame → Frame}
    (same : ∀ frame ∈ written, (relabel frame).bytes.length = frame.bytes.length) :
    (frameBytes (written.map relabel)).length = (frameBytes written).length := by
  induction written with
  | nil => rfl
  | cons frame rest ih =>
    have later := ih fun other member => same other (List.mem_cons_of_mem _ member)
    simp only [frameBytes, List.map_cons, List.flatMap_cons, List.length_append] at later ⊢
    rw [same frame List.mem_cons_self, later]

theorem length_frames {bytes : List UInt8} (whole : (frames bytes).truncated = none) :
    (frameBytes (frames bytes).frames).length = bytes.length :=
  congrArg List.length (frames_rebuild bytes whole).1

variable {timestamp : UInt32} {value : List UInt8}

theorem length_stampValue {type : UInt8} {changed : List UInt8}
    (stamped : stampValue timestamp type value = .ok changed) :
    changed.length = value.length := by
  unfold stampValue at stamped
  split at stamped
  · cases whole : (frames (value.drop 6)).truncated with
    | some cut =>
      rw [whole] at stamped
      cases stamped
    | none =>
      rw [whole] at stamped
      cases stamped
      rw [List.length_append,
        length_frameBytes_map fun frame _ => length_stampSubTlv timestamp frame,
        length_frames whole, ← List.length_append, List.take_append_drop]
  · cases stamped
    rfl

theorem stampTlv_local (timestamp : UInt32) :
    Local (Raw.stampTlv timestamp) (stampValue timestamp) where
  edits type front value back := by
    unfold Raw.stampTlv
    by_cases hello : type = TLV_HELLO ∧ 6 ≤ value.length
    · have walked := rewrite_eq (fun _ => WireError.invalidTlv TLV_HELLO)
        (stampSubTlv_local timestamp) (value.drop 6) (front ++ value.take 6) back value.length
        (by simp)
      have begins : (front ++ value.take 6).length = front.length + 6 := by
        rw [List.length_append, List.length_take, Nat.min_eq_left hello.2]
      have ends : front.length + 6 + (value.drop 6).length = front.length + value.length := by
        rw [List.length_drop]
        omega
      have whole : front ++ value.take 6 ++ (value.drop 6 ++ back) = front ++ (value ++ back) := by
        rw [List.append_assoc, ← List.append_assoc (value.take 6), List.take_append_drop]
      rw [begins, ends, whole, rewriteFrames_pure _ (edit_stampSubTlv timestamp)] at walked
      rw [if_pos hello, walked, stampValue, if_pos hello]
      cases (frames (value.drop 6)).truncated with
      | some cut => rfl
      | none => simp [Except.map, frameBytes]
    · rw [if_neg hello, stampValue, if_neg hello]
      rfl
  length _ _ _ := length_stampValue

theorem mapM_reported {A B : Type} (f : A → Except WireError B) (items : List A) :
    items.mapM (fun item => reported (f item)) = reported (items.mapM f) := by
  induction items with
  | nil => rfl
  | cons item rest ih =>
    rw [List.mapM_cons, List.mapM_cons, ih]
    cases f item with
    | error reason => rfl
    | ok value => cases rest.mapM f <;> rfl

/-- The loops compute the stamped frames. -/
theorem raw_stampHelloTimestamps (data : List UInt8) (timestamp : UInt32) :
    Raw.stampHelloTimestamps data timestamp = reported (stampHelloTimestamps data timestamp) := by
  match data with
  | [] => rfl
  | [_] => rfl
  | [_, _] => rfl
  | [_, _, _] => rfl
  | magic :: version :: high :: low :: rest =>
    have first : (index (magic :: version :: high :: low :: rest) 0 : Checked WireError UInt8) =
        .ok magic := rfl
    have second : (index (magic :: version :: high :: low :: rest) 1 : Checked WireError UInt8) =
        .ok version := rfl
    have lengths : (slice (magic :: version :: high :: low :: rest) 2 4 :
        Checked WireError (List UInt8)) = .ok [high, low] := by
      simp [slice]
    have number : (u16 high low).toNat = ofBe [high, low] := by
      have highBound := high.toNat_lt
      have lowBound := low.toNat_lt
      simp only [u16, UInt16.toNat_ofNat', ofBe, List.foldl_cons, List.foldl_nil]
      omega
    have size : (magic :: version :: high :: low :: rest).length < 4 + ofBe [high, low] ↔
        rest.length < ofBe [high, low] := by
      simp only [List.length_cons]
      omega
    simp only [Raw.stampHelloTimestamps, stampHelloTimestamps, first, second, ok_bind, lengths,
      be16_cons, number, size]
    by_cases foreign : magic = MAGIC
    swap
    · rw [if_pos foreign, if_pos foreign]
      rfl
    by_cases old : version = VERSION
    swap
    · simp only [ne_eq, foreign, not_true_eq_false, if_false, old, not_false_eq_true, if_true]
      rfl
    by_cases short : rest.length < ofBe [high, low]
    · simp only [ne_eq, foreign, old, not_true_eq_false, if_false, short, if_true]
      rfl
    have taken : (rest.take (ofBe [high, low])).length = ofBe [high, low] := by
      rw [List.length_take]
      omega
    have walked := rewrite_eq WireError.truncatedTlv (stampTlv_local timestamp)
      (rest.take (ofBe [high, low])) [magic, version, high, low] (rest.drop (ofBe [high, low]))
      (ofBe [high, low]) taken.le
    rw [taken, List.take_append_drop] at walked
    simp only [ne_eq, foreign, old, not_true_eq_false, if_false, short]
    rw [foreign, old] at walked
    refine walked.trans ?_
    have edits : Frame.edit (stampValue timestamp) = fun frame =>
        reported (stampTlv timestamp frame) := funext (edit_stampTlv timestamp)
    rw [rewriteFrames, edits, mapM_reported]
    cases (frames (rest.take (ofBe [high, low]))).frames.mapM (stampTlv timestamp) with
    | error reason => rfl
    | ok stamped => cases (frames (rest.take (ofBe [high, low]))).truncated <;> rfl

/-! ## The decoder on a stamped datagram -/

def DecodedSubTlvs.restamp (timestamp : UInt32) (sub : DecodedSubTlvs) : DecodedSubTlvs :=
  { sub with values := sub.values.map (SubTlv.restamp timestamp) }

theorem restamp_push (timestamp : UInt32) (sub : DecodedSubTlvs) (value : SubTlv) :
    (sub.push value).restamp timestamp =
      (sub.restamp timestamp).push (value.restamp timestamp) := by
  simp [DecodedSubTlvs.restamp, DecodedSubTlvs.push]

theorem be32_be32Bytes (timestamp : UInt32) (rest : List UInt8) :
    be32 (be32Bytes timestamp ++ rest) = .ok timestamp := by
  obtain ⟨a, b, c, d, spelled⟩ : ∃ a b c d, be32Bytes timestamp = [a, b, c, d] := by
    match octets : be32Bytes timestamp, length_be32Bytes timestamp with
    | [a, b, c, d], _ => exact ⟨a, b, c, d, rfl⟩
  have number : ofBe [a, b, c, d] = timestamp.toNat := by
    rw [← spelled, be32Bytes, ofBe_toBe_of_lt timestamp.toNat_lt]
  have read : be32 ([a, b, c, d] ++ rest) = .ok (UInt32.ofNat (ofBe [a, b, c, d])) := rfl
  rw [spelled, read, number, UInt32.ofNat_toNat]

theorem decodeTimestamp_stamp (timestamp : UInt32) (body : List UInt8) :
    decodeTimestamp .hello (stampSubValue timestamp SUBTLV_TIMESTAMP body) =
      (decodeTimestamp .hello body).map (SubTlv.restamp timestamp) := by
  by_cases long : 4 ≤ body.length
  · have stamped : stampSubValue timestamp SUBTLV_TIMESTAMP body =
        be32Bytes timestamp ++ body.drop 4 := if_pos ⟨rfl, long⟩
    have same := length_stampSubValue timestamp SUBTLV_TIMESTAMP body
    rw [stamped] at same ⊢
    obtain ⟨a, b, c, d, rest, rfl⟩ : ∃ a b c d rest, body = a :: b :: c :: d :: rest := by
      match body, long with
      | a :: b :: c :: d :: rest, _ => exact ⟨a, b, c, d, rest, rfl⟩
    simp only [decodeTimestamp, same, if_pos long, be32_be32Bytes]
    rfl
  · have stamped : stampSubValue timestamp SUBTLV_TIMESTAMP body = body :=
      if_neg fun both => long both.2
    rw [stamped]
    simp only [decodeTimestamp, if_neg long]
    rfl

theorem decodeSubTlv_stamp (timestamp : UInt32) (sub : DecodedSubTlvs) (frame : Frame) :
    decodeSubTlv .hello none (sub.restamp timestamp) (stampSubTlv timestamp frame) =
      (decodeSubTlv .hello none sub frame).map (DecodedSubTlvs.restamp timestamp) := by
  cases frame with
  | pad1 => simp [decodeSubTlv, stampSubTlv, Except.map, restamp_push, SubTlv.restamp]
  | tlv type body =>
    have stamped : stampSubTlv timestamp (.tlv type body) =
        .tlv type (stampSubValue timestamp type body) := by
      simp only [stampSubTlv, stampSubValue]
      split <;> rfl
    rw [stamped]
    by_cases time : type = SUBTLV_TIMESTAMP
    · subst time
      simp only [decodeSubTlv, if_neg (show ¬ SUBTLV_TIMESTAMP = 1 by decide), if_true,
        decodeTimestamp_stamp]
      cases decodeTimestamp .hello body with
      | error fault => rfl
      | ok value => simp [Except.map, pure, Except.pure, restamp_push, bind, Except.bind]
    · rw [stampSubValue, if_neg fun both => time both.1]
      simp only [decodeSubTlv, if_neg time]
      split
      · simp [Except.map, restamp_push, SubTlv.restamp]
      split
      · rfl
      · simp only [Except.map, restamp_push, SubTlv.restamp]
        split <;> rfl

variable {frame : Frame}

theorem writable_stampSubTlv (writable : frame.Writable) :
    (stampSubTlv timestamp frame).Writable := by
  cases frame with
  | pad1 => trivial
  | tlv type value =>
    have same := length_stampSubTlv timestamp (.tlv type value)
    simp only [stampSubTlv] at same ⊢
    split
    · rename_i stamped
      rw [if_pos stamped] at same
      simp only [Frame.bytes, List.length_cons, Nat.add_right_cancel_iff] at same
      exact ⟨writable.1, same ▸ writable.2⟩
    · exact writable

variable {rest : List UInt8}

theorem decodeSubTlvs_stamp (timestamp : UInt32) (whole : (frames rest).truncated = none) :
    decodeSubTlvs (frameBytes ((frames rest).frames.map (stampSubTlv timestamp))) .hello none =
      (decodeSubTlvs rest .hello none).map (DecodedSubTlvs.restamp timestamp) := by
  have writable : ∀ frame ∈ (frames rest).frames.map (stampSubTlv timestamp),
      frame.Writable := by
    intro frame member
    obtain ⟨own, listed, rfl⟩ := List.mem_map.mp member
    exact writable_stampSubTlv ((frames_rebuild rest whole).2 own listed)
  have folded := foldlM_map_view (DecodedSubTlvs.restamp timestamp) (stampSubTlv timestamp)
    (decodeSubTlv_stamp timestamp) (frames rest).frames .start
  rw [decodeSubTlvs_eq, decodeSubTlvs_eq, frames_frameBytes writable]
  simp only [foldFrames, whole]
  have start : DecodedSubTlvs.restamp timestamp .start = .start := rfl
  rw [start] at folded
  rw [folded]
  cases (frames rest).frames.foldlM (decodeSubTlv .hello none) .start <;> rfl

/-! ## TLVs other than a Hello -/

/-- Nothing a timestamp could replace. -/
def SubTlv.Quiet (sub : SubTlv) : Prop := ∀ timestamp, sub.restamp timestamp = sub

variable {context : SubContext}

theorem quiet_decodeSubTlv {destination : Option IpNet} {sub next : DecodedSubTlvs}
    (other : context ≠ .hello) (quiet : ∀ value ∈ sub.values, SubTlv.Quiet value)
    (decoded : decodeSubTlv context destination sub frame = .ok next) :
    ∀ value ∈ next.values, SubTlv.Quiet value := by
  have pushed : ∀ (result : DecodedSubTlvs) (value : SubTlv), result.values = sub.values →
      SubTlv.Quiet value → ∀ listed ∈ (result.push value).values, SubTlv.Quiet listed := by
    intro result value same own listed member
    rw [DecodedSubTlvs.push, same] at member
    rcases List.mem_append.mp member with earlier | last
    · exact quiet listed earlier
    · rw [List.mem_singleton.mp last]
      exact own
  cases frame with
  | pad1 =>
    cases decoded
    exact pushed sub _ rfl fun _ => rfl
  | tlv type body =>
    simp only [decodeSubTlv] at decoded
    split at decoded
    · cases decoded
      exact pushed sub _ rfl fun _ => rfl
    split at decoded
    · obtain ⟨value, read, last⟩ := bind_eq_ok.mp decoded
      cases last
      refine pushed sub value rfl ?_
      unfold decodeTimestamp at read
      cases context with
      | hello => exact absurd rfl other
      | ihu =>
        simp only at read
        split at read
        · obtain ⟨_, -, rest⟩ := bind_eq_ok.mp read
          obtain ⟨_, -, rest⟩ := bind_eq_ok.mp rest
          obtain ⟨_, -, last⟩ := bind_eq_ok.mp rest
          cases last
          exact fun _ => rfl
        · cases read
          exact fun _ => rfl
      | prefixed ae =>
        cases read
        exact fun _ => rfl
    split at decoded
    · obtain ⟨net, -, last⟩ := bind_eq_ok.mp decoded
      cases net <;> cases last <;> exact quiet
    · cases decoded
      refine pushed _ _ ?_ fun _ => rfl
      split <;> rfl

theorem quiet_decodeSubTlvs {destination : Option IpNet} {sub : DecodedSubTlvs}
    (other : context ≠ .hello) (decoded : decodeSubTlvs rest context destination = .ok sub) :
    ∀ value ∈ sub.values, SubTlv.Quiet value := by
  have folded := (decodeSubTlvs_eq_ok.mp decoded).2
  have start : ∀ value ∈ DecodedSubTlvs.start.values, SubTlv.Quiet value := by
    simp [DecodedSubTlvs.start]
  generalize DecodedSubTlvs.start = first at folded start
  generalize (frames rest).frames = written at folded
  induction written generalizing first with
  | nil =>
    cases folded
    exact start
  | cons frame others ih =>
    obtain ⟨middle, own, later⟩ := bind_eq_ok.mp folded
    exact ih middle (quiet_decodeSubTlv other start own) later

/-- Without Hello timestamps in its sub-TLVs, the TLV has none. -/
def Reading.Quiet (reading : Reading) : Prop :=
  ∀ sub tlv timestamp, (reading.context ≠ .hello → ∀ value ∈ sub.values, SubTlv.Quiet value) →
    reading.finish sub = .ok (some tlv) → tlv.restamp timestamp = tlv

def Plan.Quiet : Plan → Prop
  | .skip => True
  | .whole tlv => ∀ timestamp, tlv.restamp timestamp = tlv
  | .read reading => reading.Quiet

theorem map_restamp {values : List SubTlv} (timestamp : UInt32)
    (quiet : ∀ value ∈ values, SubTlv.Quiet value) :
    values.map (SubTlv.restamp timestamp) = values := by
  have same : values.map (SubTlv.restamp timestamp) = values.map id :=
    List.map_congr_left fun value member => quiet value member timestamp
  rw [same, List.map_id]

variable {after : ParserState}

section Others
variable {value : List UInt8} {state : ParserState} {plan : Plan}

theorem quiet_plain {finish : List SubTlv → Tlv} (constant : ∀ values timestamp,
      (context ≠ .hello → ∀ value ∈ values, SubTlv.Quiet value) →
        (finish values).restamp timestamp = finish values) :
    (Plan.plain rest context state finish).Quiet := by
  intro sub tlv timestamp quiet finished
  obtain rfl : finish sub.values = tlv := by
    simpa using finished
  exact constant sub.values timestamp quiet

theorem quiet_resolveUpdate {fields : UpdateFields} {key : RouteKey} {net : IpNet}
    {values : List SubTlv} {tlv : Tlv} (timestamp : UInt32)
    (quiet : ∀ value ∈ values, SubTlv.Quiet value)
    (resolved : resolveUpdate fields key net state values = some tlv) :
    tlv.restamp timestamp = tlv := by
  have kept := map_restamp timestamp quiet
  unfold resolveUpdate at resolved
  split at resolved
  · cases resolved
    simp only [Tlv.restamp, kept]
  · obtain ⟨_, -, rest⟩ := Option.bind_eq_some_iff.mp resolved
    split at rest
    · obtain ⟨_, -, last⟩ := Option.bind_eq_some_iff.mp rest
      cases last
      simp only [Tlv.restamp, kept]
    · obtain ⟨_, -, last⟩ := Option.bind_eq_some_iff.mp rest
      cases last
      simp only [Tlv.restamp, kept]

theorem quiet_unlessMandatory {discarded : Bool} {tlv result : Tlv}
    (quiet : tlv.restamp timestamp = tlv) (kept : unlessMandatory discarded tlv = some result) :
    result.restamp timestamp = result := by
  unfold unlessMandatory at kept
  split at kept
  · cases kept
  · cases kept
    exact quiet

theorem quiet_request {own : UInt8} {ae : AddressEncoding} {net : IpNet}
    {finish : RouteKey → List SubTlv → Tlv}
    (constant : ∀ key values timestamp, (∀ value ∈ values, SubTlv.Quiet value) →
      (finish key values).restamp timestamp = finish key values) :
    (Reading.ofRequest own ae net rest state finish).Quiet := by
  intro sub tlv timestamp quiet finished
  obtain ⟨key, -, last⟩ := bind_eq_ok.mp finished
  cases last
  exact constant key sub.values timestamp (quiet (by simp [Reading.ofRequest]))

theorem quiet_any {finish : List SubTlv → Tlv}
    (constant : ∀ values timestamp, (∀ value ∈ values, SubTlv.Quiet value) →
      (finish values).restamp timestamp = finish values) :
    (Reading.ofAny rest state finish).Quiet := by
  intro sub tlv timestamp quiet finished
  exact quiet_unlessMandatory (constant sub.values timestamp (quiet (by simp [Reading.ofAny])))
    (Except.ok.inj finished)

theorem quiet_planTlv {type : UInt8} (other : type ≠ TLV_HELLO)
    (planned : planTlv type value state = .ok plan) : plan.Quiet := by
  cases planTlv_planned planned with
  | skip => trivial
  | whole bare same => rcases same with rfl | rfl <;> exact fun _ => rfl
  | hello unicast seqno intervalCs own => exact absurd own other
  | ackRequest nonce intervalCs interval => exact quiet_plain fun _ _ _ => rfl
  | ack nonce => exact quiet_plain fun _ _ _ => rfl
  | routerId id => exact quiet_plain fun _ _ _ => rfl
  | nextHop address => exact quiet_plain fun _ _ _ => rfl
  | ihu address rxcost intervalCs interval =>
    refine quiet_plain fun values timestamp quiet => ?_
    simp only [Tlv.restamp, map_restamp timestamp (quiet (by decide))]
  | update fields net own interval about family =>
    intro sub tlv timestamp quiet finished
    obtain ⟨key, -, resolved⟩ := bind_eq_ok.mp finished
    exact quiet_resolveUpdate timestamp (quiet (by simp [Reading.ofUpdate]))
      (Except.ok.inj resolved)
  | retractAll intervalCs seqno metric interval infinite =>
    refine quiet_any fun values timestamp quiet => ?_
    simp only [Tlv.restamp, map_restamp timestamp quiet]
  | requestAll =>
    refine quiet_any fun values timestamp quiet => ?_
    simp only [Tlv.restamp, map_restamp timestamp quiet]
  | routeRequest ae net about =>
    refine quiet_request fun key values timestamp quiet => ?_
    simp only [Tlv.restamp, map_restamp timestamp quiet]
  | seqnoRequest ae net seqno hopCount id about hops =>
    refine quiet_request fun key values timestamp quiet => ?_
    simp only [Tlv.restamp, map_restamp timestamp quiet]

theorem quiet_run {entry : Option Tlv} (quiet : plan.Quiet) (timestamp : UInt32)
    (ran : plan.run state = .ok (entry, after)) :
    entry.map (Tlv.restamp timestamp) = entry := by
  cases plan with
  | skip =>
    cases ran
    rfl
  | whole tlv =>
    cases ran
    exact congrArg some (quiet timestamp)
  | read reading =>
    obtain ⟨sub, decoded, finished⟩ := bind_eq_ok.mp ran
    split at finished
    · cases finished
      rfl
    · obtain ⟨result, own, last⟩ := bind_eq_ok.mp finished
      cases last
      cases entry with
      | none => rfl
      | some tlv =>
        exact congrArg some (quiet sub tlv timestamp
          (fun other => quiet_decodeSubTlvs other decoded) own)

end Others

/-! ## Stamped frames -/

def stampFrame (timestamp : UInt32) : Frame → Frame
  | .pad1 => .pad1
  | .tlv type value =>
    if type = TLV_HELLO ∧ 6 ≤ value.length then
      .tlv type (value.take 6 ++
        frameBytes ((frames (value.drop 6)).frames.map (stampSubTlv timestamp)))
    else .tlv type value

theorem stampFrame_hello (timestamp : UInt32) (long : 6 ≤ value.length) :
    stampFrame timestamp (.tlv TLV_HELLO value) = .tlv TLV_HELLO (value.take 6 ++
      frameBytes ((frames (value.drop 6)).frames.map (stampSubTlv timestamp))) :=
  if_pos ⟨rfl, long⟩

theorem stampSubTlv_timestamp (timestamp : UInt32) {body : List UInt8} (long : 4 ≤ body.length) :
    stampSubTlv timestamp (.tlv SUBTLV_TIMESTAMP body) =
      .tlv SUBTLV_TIMESTAMP (be32Bytes timestamp ++ body.drop 4) :=
  if_pos ⟨rfl, long⟩

/-- The decoder has looked at the sub-TLVs of every Hello, so stamping finds them whole. -/
theorem hello_whole {state : ParserState} {entry : Option Tlv}
    (decoded : decodeTlv TLV_HELLO value state = .ok (entry, after)) :
    6 ≤ value.length ∧ (frames (value.drop 6)).truncated = none := by
  have planned : planTlv TLV_HELLO value state = planHello value state := rfl
  rw [decodeTlv_eq, planned] at decoded
  obtain ⟨plan, hello, ran⟩ := bind_eq_ok.mp decoded
  unfold planHello at hello
  split at hello
  · cases hello
    obtain ⟨sub, read, -⟩ := bind_eq_ok.mp ran
    exact ⟨by simp, (decodeSubTlvs_eq_ok.mp read).1⟩
  · cases hello

section Frames
variable {frame : Frame} {state after : ParserState} {entry : Option Tlv}

theorem stampTlv_ok (timestamp : UInt32) (decoded : decodeOne frame state = .ok (entry, after)) :
    stampTlv timestamp frame = .ok (stampFrame timestamp frame) := by
  cases frame with
  | pad1 => rfl
  | tlv type value =>
    simp only [stampTlv, stampFrame]
    split
    · rename_i hello
      obtain ⟨rfl, -⟩ := hello
      rw [(hello_whole decoded).2]
    · rfl

theorem length_stampFrame (timestamp : UInt32)
    (decoded : decodeOne frame state = .ok (entry, after)) :
    (stampFrame timestamp frame).bytes.length = frame.bytes.length := by
  cases frame with
  | pad1 => rfl
  | tlv type value =>
    simp only [stampFrame]
    split
    · rename_i hello
      obtain ⟨rfl, -⟩ := hello
      simp only [Frame.bytes, List.length_cons, List.length_append,
        length_frameBytes_map fun frame _ => length_stampSubTlv timestamp frame,
        length_frames (hello_whole decoded).2]
      rw [← List.length_append, List.take_append_drop]
    · rfl

theorem writable_stampFrame (timestamp : UInt32) (writable : frame.Writable)
    (decoded : decodeOne frame state = .ok (entry, after)) :
    (stampFrame timestamp frame).Writable := by
  have same := length_stampFrame timestamp decoded
  cases frame with
  | pad1 => trivial
  | tlv type value =>
    simp only [stampFrame] at same ⊢
    split
    · rename_i hello
      rw [if_pos hello] at same
      simp only [Frame.bytes, List.length_cons, Nat.add_right_cancel_iff] at same
      exact ⟨writable.1, same ▸ writable.2⟩
    · exact writable

theorem decodeOne_stamp (timestamp : UInt32)
    (decoded : decodeOne frame state = .ok (entry, after)) :
    decodeOne (stampFrame timestamp frame) state =
      .ok (entry.map (Tlv.restamp timestamp), after) := by
  cases frame with
  | pad1 =>
    cases decoded
    rfl
  | tlv type value =>
    by_cases hello : type = TLV_HELLO
    · subst hello
      obtain ⟨long, whole⟩ := hello_whole decoded
      obtain ⟨f0, f1, s0, s1, i0, i1, rest, rfl⟩ : ∃ f0 f1 s0 s1 i0 i1 rest,
          value = f0 :: f1 :: s0 :: s1 :: i0 :: i1 :: rest := by
        match value, long with
        | f0 :: f1 :: s0 :: s1 :: i0 :: i1 :: rest, _ => exact ⟨f0, f1, s0, s1, i0, i1, rest, rfl⟩
      have planned : ∀ tail, planTlv TLV_HELLO (f0 :: f1 :: s0 :: s1 :: i0 :: i1 :: tail) state =
          .ok (.plain tail .hello state fun subTlvs =>
            .hello (u16 f0 f1 &&& 0x8000 ≠ 0) (u16 s0 s1) (u16 i0 i1) subTlvs) := fun _ => rfl
      simp only [decodeOne, decodeTlv_eq, planned, ok_bind, run_plain] at decoded
      rw [stampFrame_hello timestamp long]
      simp only [decodeOne, decodeTlv_eq]
      have spelled : (f0 :: f1 :: s0 :: s1 :: i0 :: i1 :: rest).take 6 ++
          frameBytes ((frames rest).frames.map (stampSubTlv timestamp)) =
          f0 :: f1 :: s0 :: s1 :: i0 :: i1 ::
            frameBytes ((frames rest).frames.map (stampSubTlv timestamp)) := rfl
      have dropped : (f0 :: f1 :: s0 :: s1 :: i0 :: i1 :: rest).drop 6 = rest := rfl
      rw [dropped] at whole ⊢
      rw [spelled, planned, ok_bind, run_plain, decodeSubTlvs_stamp timestamp whole]
      obtain ⟨sub, read, last⟩ := bind_eq_ok.mp decoded
      cases last
      rw [read]
      simp only [Except.map, ok_bind, DecodedSubTlvs.restamp, unlessMandatory]
      split <;> rfl
    · have same : stampFrame timestamp (.tlv type value) = .tlv type value :=
        if_neg fun both => hello both.1
      rw [same]
      refine decoded.trans ?_
      simp only [decodeOne, decodeTlv_eq] at decoded
      obtain ⟨plan, planned, ran⟩ := bind_eq_ok.mp decoded
      rw [quiet_run (quiet_planTlv hello planned) timestamp ran]

end Frames

theorem decodeFrames_stamp (timestamp : UInt32) {state : ParserState} {tlvs : List Tlv}
    (decoded : decodeFrames written state = .ok (tlvs, after)) :
    decodeFrames (written.map (stampFrame timestamp)) state =
        .ok (tlvs.map (Tlv.restamp timestamp), after) ∧
      written.mapM (stampTlv timestamp) = .ok (written.map (stampFrame timestamp)) ∧
      ∀ frame ∈ written, (stampFrame timestamp frame).bytes.length = frame.bytes.length ∧
        (frame.Writable → (stampFrame timestamp frame).Writable) ∧
        ∀ value, frame = .tlv TLV_HELLO value → (frames (value.drop 6)).truncated = none := by
  induction written generalizing state tlvs with
  | nil =>
    cases decoded
    exact ⟨rfl, rfl, by simp⟩
  | cons frame rest ih =>
    obtain ⟨entry, middle, later, first, following, rfl⟩ := decodeFrames_cons_ok.mp decoded
    obtain ⟨others, stamped, each⟩ := ih following
    refine ⟨?_, ?_, ?_⟩
    · refine decodeFrames_cons_ok.mpr ⟨_, middle, _, decodeOne_stamp timestamp first, others, ?_⟩
      cases entry <;> simp
    · rw [List.mapM_cons, stampTlv_ok timestamp first, stamped]
      rfl
    · intro own member
      rcases List.mem_cons.mp member with rfl | behind
      · refine ⟨length_stampFrame timestamp first,
          fun writable => writable_stampFrame timestamp writable first, ?_⟩
        rintro value rfl
        exact (hello_whole first).2
      · exact each own behind

/-! ## The octets that change -/

/-- Where two lists of frames of equal sizes differ, one of the frames does. -/
theorem differing_frame {relabel : Frame → Frame}
    (same : ∀ frame ∈ written, (relabel frame).bytes.length = frame.bytes.length) {i : Nat}
    (differs : (frameBytes (written.map relabel))[i]? ≠ (frameBytes written)[i]?) :
    ∃ front frame back j, written = front ++ frame :: back ∧
      i = (frameBytes front).length + j ∧ (relabel frame).bytes[j]? ≠ frame.bytes[j]? := by
  induction written generalizing i with
  | nil => exact absurd rfl differs
  | cons frame rest ih =>
    have own := same frame List.mem_cons_self
    simp only [frameBytes, List.map_cons, List.flatMap_cons] at differs
    by_cases inside : i < frame.bytes.length
    · rw [List.getElem?_append_left (own ▸ inside), List.getElem?_append_left inside] at differs
      exact ⟨[], frame, rest, i, rfl, by simp [frameBytes], differs⟩
    · have behind := not_lt.mp inside
      rw [List.getElem?_append_right (own ▸ behind), List.getElem?_append_right behind,
        own] at differs
      obtain ⟨front, other, back, j, rfl, position, there⟩ :=
        ih (fun other member => same other (List.mem_cons_of_mem _ member)) differs
      refine ⟨frame :: front, other, back, j, rfl, ?_, there⟩
      simp only [frameBytes, List.flatMap_cons, List.length_append] at position ⊢
      omega

/-- The octet belongs to the timestamp of a Hello. -/
def InTimestamp (written : List Frame) (i : Nat) : Prop :=
  ∃ front value back subFront body subBack k,
    written = front ++ .tlv TLV_HELLO value :: back ∧
    (frames (value.drop 6)).frames = subFront ++ .tlv SUBTLV_TIMESTAMP body :: subBack ∧
    4 ≤ body.length ∧ k < 4 ∧
    -- header, frames before, type and length, fields, sub-TLVs before, type and length
    i = 4 + (frameBytes front).length + 2 + 6 + (frameBytes subFront).length + 2 + k

theorem differing_subTlv {j : Nat}
    (differs : (stampSubTlv timestamp frame).bytes[j]? ≠ frame.bytes[j]?) :
    ∃ body k, frame = .tlv SUBTLV_TIMESTAMP body ∧ 4 ≤ body.length ∧ k < 4 ∧ j = 2 + k := by
  cases frame with
  | pad1 => exact absurd rfl differs
  | tlv type body =>
    by_cases stamped : type = SUBTLV_TIMESTAMP ∧ 4 ≤ body.length
    swap
    · rw [stampSubTlv, if_neg stamped] at differs
      exact absurd rfl differs
    obtain ⟨rfl, long⟩ := stamped
    have size : (be32Bytes timestamp ++ body.drop 4).length = body.length := by
      rw [List.length_append, length_be32Bytes, List.length_drop]
      omega
    rw [stampSubTlv_timestamp timestamp long] at differs
    simp only [Frame.bytes, size] at differs
    rcases j with _ | _ | k
    · exact absurd rfl differs
    · exact absurd rfl differs
    · refine ⟨body, k, rfl, long, ?_, Nat.add_comm k 2⟩
      by_contra far
      apply differs
      simp only [List.getElem?_cons_succ]
      rw [List.getElem?_append_right (by rw [length_be32Bytes]; omega), length_be32Bytes,
        List.getElem?_drop]
      congr 1
      omega

theorem differing_hello {j : Nat}
    (whole : ∀ value, frame = .tlv TLV_HELLO value → (frames (value.drop 6)).truncated = none)
    (differs : (stampFrame timestamp frame).bytes[j]? ≠ frame.bytes[j]?) :
    ∃ value subFront body subBack k, frame = .tlv TLV_HELLO value ∧
      (frames (value.drop 6)).frames = subFront ++ .tlv SUBTLV_TIMESTAMP body :: subBack ∧
      4 ≤ body.length ∧ k < 4 ∧ j = 2 + 6 + (frameBytes subFront).length + 2 + k := by
  cases frame with
  | pad1 => exact absurd rfl differs
  | tlv type value =>
    by_cases hello : type = TLV_HELLO ∧ 6 ≤ value.length
    swap
    · rw [stampFrame, if_neg hello] at differs
      exact absurd rfl differs
    obtain ⟨rfl, long⟩ := hello
    obtain ⟨rebuilt, -⟩ := frames_rebuild (value.drop 6) (whole value rfl)
    have parts : value = value.take 6 ++ frameBytes (frames (value.drop 6)).frames := by
      rw [frameBytes, rebuilt, List.take_append_drop]
    have front : (value.take 6).length = 6 := by
      rw [List.length_take, Nat.min_eq_left long]
    have sizes : (frameBytes ((frames (value.drop 6)).frames.map
        (stampSubTlv timestamp))).length = (frameBytes (frames (value.drop 6)).frames).length :=
      length_frameBytes_map fun frame _ => length_stampSubTlv timestamp frame
    have size : (value.take 6 ++ frameBytes ((frames (value.drop 6)).frames.map
        (stampSubTlv timestamp))).length = value.length := by
      rw [List.length_append, sizes, ← List.length_append, ← parts]
    rw [stampFrame_hello timestamp long] at differs
    simp only [Frame.bytes, size] at differs
    rcases j with _ | _ | j
    · exact absurd rfl differs
    · exact absurd rfl differs
    · simp only [List.getElem?_cons_succ] at differs
      have far : 6 ≤ j := by
        by_contra near
        apply differs
        rw [List.getElem?_append_left (by omega), List.getElem?_take_of_lt (by omega)]
      have inner : (frameBytes ((frames (value.drop 6)).frames.map
          (stampSubTlv timestamp)))[j - 6]? ≠
          (frameBytes (frames (value.drop 6)).frames)[j - 6]? := by
        intro equal
        apply differs
        rw [List.getElem?_append_right (by omega), front, equal, frameBytes, rebuilt,
          List.getElem?_drop]
        congr 1
        omega
      obtain ⟨subFront, sub, subBack, m, split, position, there⟩ :=
        differing_frame (fun frame _ => length_stampSubTlv timestamp frame) inner
      obtain ⟨body, k, rfl, sized, small, rfl⟩ := differing_subTlv there
      exact ⟨value, subFront, body, subBack, k, rfl, split, sized, small, by omega⟩

theorem stampHelloTimestamps_assemble {stamped : List Frame} {trailer : List UInt8}
    (writable : ∀ frame ∈ written, frame.Writable) (small : (frameBytes written).length ≤ 65535)
    (stamps : written.mapM (stampTlv timestamp) = .ok stamped)
    (sizes : (frameBytes stamped).length = (frameBytes written).length) :
    stampHelloTimestamps (assemble written trailer) timestamp = .ok (assemble stamped trailer) := by
  obtain ⟨high, low, header⟩ : ∃ high low, toBe 2 (frameBytes written).length = [high, low] :=
    List.length_eq_two.mp (length_toBe 2 _)
  have length : ofBe [high, low] = (frameBytes written).length := by
    rw [← header, ofBe_toBe_of_lt (by omega)]
  have framed : ∀ listed, (frameBytes listed).length = (frameBytes written).length →
      assemble listed trailer =
        MAGIC :: VERSION :: high :: low :: (frameBytes listed ++ trailer) := by
    intro listed same
    rw [assemble, same, header]
    rfl
  rw [framed written rfl, framed stamped sizes]
  simp only [stampHelloTimestamps, ne_eq, not_true_eq_false, if_false, length, List.take_left',
    List.drop_left', List.length_append, frames_frameBytes writable, stamps]
  rw [if_neg (by omega)]
  rfl

/-- Outside the timestamps nothing differs. -/
theorem differing_octet {trailer : List UInt8} {i : Nat}
    (same : ∀ frame ∈ written, (stampFrame timestamp frame).bytes.length = frame.bytes.length)
    (whole : ∀ frame ∈ written, ∀ value, frame = .tlv TLV_HELLO value →
      (frames (value.drop 6)).truncated = none)
    (differs : (assemble (written.map (stampFrame timestamp)) trailer)[i]? ≠
      (assemble written trailer)[i]?) : InTimestamp written i := by
  have sizes := length_frameBytes_map same
  have header : ([MAGIC, VERSION] ++ toBe 2 (frameBytes written).length).length = 4 := by
    simp [length_toBe]
  rw [assemble, assemble, sizes] at differs
  generalize [MAGIC, VERSION] ++ toBe 2 (frameBytes written).length = opening at header differs
  have far : 4 ≤ i := by
    by_contra near
    apply differs
    rw [List.getElem?_append_left (by omega), List.getElem?_append_left (by omega)]
  have behindHeader : ∀ bytes : List UInt8, (opening ++ bytes)[i]? = bytes[i - 4]? := by
    intro bytes
    rw [List.getElem?_append_right (by omega), header]
  rw [behindHeader, behindHeader] at differs
  have inside : i - 4 < (frameBytes written).length := by
    by_contra behind
    apply differs
    rw [List.getElem?_append_right (by omega), sizes, List.getElem?_append_right (by omega)]
  have before : ∀ bytes : List UInt8, bytes.length = (frameBytes written).length →
      (bytes ++ trailer)[i - 4]? = bytes[i - 4]? := by
    intro bytes size
    rw [List.getElem?_append_left (by omega)]
  rw [before _ sizes, before _ rfl] at differs
  obtain ⟨front, frame, back, j, rfl, position, there⟩ := differing_frame same differs
  obtain ⟨value, subFront, body, subBack, k, rfl, split, sized, few, rfl⟩ :=
    differing_hello (whole frame (by simp)) there
  exact ⟨front, value, back, subFront, body, subBack, k, rfl, split, sized, few, by omega⟩

/-- Stamping any datagram that decodes. -/
theorem stamping_changes_only_timestamps {data : List UInt8} {context : DecodeContext}
    {packet : Packet} (timestamp : UInt32)
    (accepted : decodePacket data context = .ok packet) :
    ∃ written trailer stamped, data = assemble written trailer ∧
      (∀ frame ∈ written, frame.Writable) ∧
      Raw.stampHelloTimestamps data timestamp = .ok stamped ∧
      stamped.length = data.length ∧
      (∀ i, ¬ InTimestamp written i → stamped[i]? = data[i]?) ∧
      decodePacket stamped context = .ok (packet.restamp timestamp) := by
  obtain ⟨written, trailer, final, rfl, writable, small, decoded⟩ :=
    decodePacket_accepts.mp accepted
  obtain ⟨again, stamps, each⟩ := decodeFrames_stamp timestamp decoded
  have sizes := length_frameBytes_map fun frame member => (each frame member).1
  refine ⟨written, trailer, assemble (written.map (stampFrame timestamp)) trailer, rfl, writable,
    ?_, ?_, ?_, ?_⟩
  · rw [raw_stampHelloTimestamps, stampHelloTimestamps_assemble writable small stamps sizes]
    rfl
  · simp only [assemble, List.length_append, length_toBe, sizes]
  · intro i outside
    by_contra differs
    exact outside (differing_octet (fun frame member => (each frame member).1)
      (fun frame member => (each frame member).2.2) differs)
  · refine decodePacket_accepts.mpr ⟨_, trailer, final, rfl, ?_, sizes ▸ small, again⟩
    intro frame member
    obtain ⟨own, listed, rfl⟩ := List.mem_map.mp member
    exact (each own listed).2.1 (writable own listed)

/-- A Hello with timestamp 1, and two octets behind the body. -/
theorem hello_is_stamped :
    ∃ stamped, Raw.stampHelloTimestamps
        [42, 2, 0, 14, 4, 12, 0, 0, 0, 5, 0, 9, 3, 4, 0, 0, 0, 1, 77, 78] 0x01020304 = .ok stamped ∧
      decodePacket stamped ⟨.v4 0⟩ = .ok ⟨[.hello false 5 9 [.timestampHello 0x01020304]]⟩ := by
  have accepted : decodePacket
      [42, 2, 0, 14, 4, 12, 0, 0, 0, 5, 0, 9, 3, 4, 0, 0, 0, 1, 77, 78] ⟨.v4 0⟩ =
        .ok ⟨[.hello false 5 9 [.timestampHello 1]]⟩ := by
    decide +kernel
  obtain ⟨_, _, stamped, -, -, stamps, -, -, decoded⟩ :=
    stamping_changes_only_timestamps 0x01020304 accepted
  exact ⟨stamped, stamps, decoded⟩

end Wire

end BabelRs
