import BabelRs.Wire.Encode
import BabelRs.Wire.Plan

/-!
# Packets as lists of frames

An accepted datagram is a header, a list of frames and whatever stands behind the body.
Its TLVs are those of its frames, decoded one after the other in the context the frames
before leave.
-/

set_option autoImplicit false

namespace BabelRs.Wire

open Lib Lib.Checked

/-- The datagram with these frames, and octets behind its body. -/
def assemble (written : List Frame) (trailer : List UInt8) : List UInt8 :=
  [MAGIC, VERSION] ++ toBe 2 (frameBytes written).length ++ (frameBytes written ++ trailer)

/-- What the decoder makes of some frames, from the given context. -/
def decodeFrames (written : List Frame) (state : ParserState) :
    Checked WireError (List Tlv × ParserState) :=
  written.foldlM decodeFrame ([], state)

def decodeOne (frame : Frame) (state : ParserState) : Checked WireError (Option Tlv × ParserState) :=
  match frame with
  | .pad1 => .ok (some .pad1, state)
  | .tlv type value => decodeTlv type value state

theorem decodeFrame_eq (parsed : List Tlv × ParserState) (frame : Frame) :
    decodeFrame parsed frame = (decodeOne frame parsed.2).map fun result =>
      (parsed.1 ++ result.1.toList, result.2) := by
  cases frame with
  | pad1 => rfl
  | tlv type value =>
    rw [decodeFrame_tlv, decodeOne]
    cases decodeTlv type value parsed.2 <;> rfl

theorem foldlM_decodeFrame (written : List Frame) (tlvs : List Tlv) (state : ParserState) :
    written.foldlM decodeFrame (tlvs, state) =
      (decodeFrames written state).map fun result => (tlvs ++ result.1, result.2) := by
  induction written generalizing tlvs state with
  | nil => simp [decodeFrames, pure, Except.pure, Except.map]
  | cons frame rest ih =>
    simp only [decodeFrames, List.foldlM_cons, decodeFrame_eq]
    cases decodeOne frame state with
    | error fault => rfl
    | ok result =>
      simp only [Except.map, ok_bind, ih (tlvs ++ result.1.toList), ih ([] ++ result.1.toList)]
      cases decodeFrames rest result.2 <;> simp

theorem decodeFrames_cons (frame : Frame) (rest : List Frame) (state : ParserState) :
    decodeFrames (frame :: rest) state = decodeOne frame state >>= fun first =>
      (decodeFrames rest first.2).map fun later => (first.1.toList ++ later.1, later.2) := by
  rw [decodeFrames, List.foldlM_cons, decodeFrame_eq]
  cases decodeOne frame state with
  | error fault => rfl
  | ok result => exact foldlM_decodeFrame rest _ _

theorem decodeFrames_append (front back : List Frame) (state : ParserState) :
    decodeFrames (front ++ back) state = decodeFrames front state >>= fun first =>
      (decodeFrames back first.2).map fun later => (first.1 ++ later.1, later.2) := by
  rw [decodeFrames, List.foldlM_append]
  refine congrArg _ (funext fun first => ?_)
  exact foldlM_decodeFrame back _ _

theorem decodeFrames_append_ok {front back : List Frame} {state after : ParserState}
    {tlvs : List Tlv} :
    decodeFrames (front ++ back) state = .ok (tlvs, after) ↔ ∃ before middle later,
      decodeFrames front state = .ok (before, middle) ∧
      decodeFrames back middle = .ok (later, after) ∧ tlvs = before ++ later := by
  rw [decodeFrames_append, bind_eq_ok]
  constructor
  · rintro ⟨⟨before, middle⟩, first, rest⟩
    obtain ⟨⟨later, final⟩, second, same⟩ := map_eq_ok.mp rest
    obtain ⟨rfl, rfl⟩ := Prod.mk.inj same
    exact ⟨before, middle, later, first, second, rfl⟩
  · rintro ⟨before, middle, later, first, second, rfl⟩
    exact ⟨(before, middle), first, map_eq_ok.mpr ⟨_, second, rfl⟩⟩

theorem decodeFrames_cons_ok {frame : Frame} {rest : List Frame} {state after : ParserState}
    {tlvs : List Tlv} :
    decodeFrames (frame :: rest) state = .ok (tlvs, after) ↔ ∃ entry middle later,
      decodeOne frame state = .ok (entry, middle) ∧
      decodeFrames rest middle = .ok (later, after) ∧ tlvs = entry.toList ++ later := by
  rw [decodeFrames_cons, bind_eq_ok]
  constructor
  · rintro ⟨⟨entry, middle⟩, first, rest⟩
    obtain ⟨⟨later, final⟩, second, same⟩ := map_eq_ok.mp rest
    obtain ⟨rfl, rfl⟩ := Prod.mk.inj same
    exact ⟨entry, middle, later, first, second, rfl⟩
  · rintro ⟨entry, middle, later, first, second, rfl⟩
    exact ⟨(entry, middle), first, map_eq_ok.mpr ⟨_, second, rfl⟩⟩

/-! ## Accepted datagrams -/

theorem decodeBody_eq_ok {body : List UInt8} {source : IpAddr} {packet : Packet} :
    decodeBody body source = .ok packet ↔ (frames body).truncated = none ∧
      ∃ state, decodeFrames (frames body).frames (.new source) = .ok (packet.tlvs, state) := by
  rw [decodeBody_eq, foldFrames]
  change Except.map _ (decodeFrames _ _ >>= _) = _ ↔ _
  cases decoded : decodeFrames (frames body).frames (.new source) with
  | error fault => simp [Except.map, bind, Except.bind]
  | ok result =>
    obtain ⟨tlvs, state⟩ := result
    rw [ok_bind]
    cases (frames body).truncated with
    | some type => simp [fail, Except.map]
    | none =>
      simp only [pure, Except.pure, Except.map, Except.ok.injEq, Prod.mk.injEq, true_and,
        exists_and_left, exists_eq', and_true]
      constructor
      · rintro rfl
        rfl
      · rintro rfl
        rfl

theorem frames_frameBytes {written : List Frame} (writable : ∀ frame ∈ written, frame.Writable) :
    frames (frameBytes written) = ⟨written, none⟩ := by
  have read := frames_written written writable []
  rw [List.append_nil, frames_nil] at read
  rw [frameBytes, read]
  simp [Framed.precede, Framed.nothing]

/-- A datagram is read as frames in one way only. -/
theorem assemble_inj {written others : List Frame} {trailer rest : List UInt8}
    (writable : ∀ frame ∈ written, frame.Writable) (othersWritable : ∀ frame ∈ others, frame.Writable)
    (small : (assemble written trailer).length ≤ 65535)
    (same : assemble written trailer = assemble others rest) :
    others = written ∧ rest = trailer := by
  have sizes := congrArg List.length same
  simp only [assemble, List.length_append, length_toBe, List.length_cons, List.length_nil]
    at small sizes
  obtain ⟨headers, bodies⟩ := List.append_inj same (by simp)
  have lengths := congrArg ofBe (List.append_inj headers rfl).2
  rw [ofBe_toBe_of_lt (by omega), ofBe_toBe_of_lt (by omega)] at lengths
  obtain ⟨bytes, behind⟩ := List.append_inj bodies lengths
  have framed := congrArg frames bytes
  rw [frames_frameBytes writable, frames_frameBytes othersWritable] at framed
  exact ⟨(congrArg Framed.frames framed).symm, behind.symm⟩

theorem decodePacket_assemble {written : List Frame} {trailer : List UInt8}
    (small : (frameBytes written).length ≤ 65535) (context : DecodeContext) :
    decodePacket (assemble written trailer) context =
      decodeBody (frameBytes written) context.source := by
  obtain ⟨high, low, header⟩ : ∃ high low, toBe 2 (frameBytes written).length = [high, low] :=
    List.length_eq_two.mp (length_toBe 2 _)
  have length : ofBe [high, low] = (frameBytes written).length := by
    rw [← header, ofBe_toBe_of_lt (by omega)]
  have framed : assemble written trailer =
      42 :: 2 :: high :: low :: (frameBytes written ++ trailer) := by
    rw [assemble, header]
    rfl
  rw [framed]
  exact decodePacket_framed (by rw [length, List.length_append]; omega)
    (List.take_left' length.symm) context

/-- The datagrams the decoder accepts, and their TLVs. -/
theorem decodePacket_accepts {data : List UInt8} {context : DecodeContext} {packet : Packet} :
    decodePacket data context = .ok packet ↔ ∃ written trailer state,
      data = assemble written trailer ∧ (∀ frame ∈ written, frame.Writable) ∧
      (frameBytes written).length ≤ 65535 ∧
      decodeFrames written (.new context.source) = .ok (packet.tlvs, state) := by
  constructor
  · intro accepted
    obtain ⟨high, low, body, trailer, rfl, length, decoded⟩ := decodePacket_eq_ok.mp accepted
    obtain ⟨whole, state, tlvs⟩ := decodeBody_eq_ok.mp decoded
    obtain ⟨same, writable⟩ := frames_rebuild body whole
    have header : toBe 2 body.length = [high, low] := by
      rw [← length]
      exact toBe_ofBe [high, low]
    have small : body.length ≤ 65535 := by
      have highBound := high.toNat_lt
      have lowBound := low.toNat_lt
      simp only [ofBe, List.foldl_cons, List.foldl_nil] at length
      omega
    refine ⟨(frames body).frames, trailer, state, ?_, writable, ?_, tlvs⟩
    · rw [assemble, frameBytes, same, header]
      rfl
    · rw [frameBytes, same]
      exact small
  · rintro ⟨written, trailer, state, rfl, writable, small, decoded⟩
    rw [decodePacket_assemble small, decodeBody_eq_ok, frames_frameBytes writable]
    exact ⟨rfl, state, decoded⟩

end BabelRs.Wire
