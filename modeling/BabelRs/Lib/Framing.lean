import Mathlib.Algebra.Order.Group.Nat
import Mathlib.Data.List.Basic

/-!
# Type-length-value framing

A byte string is read as a sequence of frames: a lone zero octet is padding, any
other octet is a type that a length octet and that many octets follow.  Reading
stops at the first frame that runs past the end and reports its type.
-/

set_option autoImplicit false

namespace BabelRs.Lib

inductive Frame where
  | pad1
  | tlv (type : UInt8) (value : List UInt8)
deriving DecidableEq, Repr

/-- The frames read, and the type of the frame the end cut off, if any. -/
structure Framed where
  frames : List Frame
  truncated : Option UInt8
deriving DecidableEq, Repr

namespace Framed

def nothing : Framed := ⟨[], none⟩

def precede (front : List Frame) (rest : Framed) : Framed := ⟨front ++ rest.frames, rest.truncated⟩

@[simp] theorem precede_nil (rest : Framed) : precede [] rest = rest := rfl

@[simp] theorem precede_precede (first second : List Frame) (rest : Framed) :
    precede first (precede second rest) = precede (first ++ second) rest := by
  simp [precede]

@[simp] theorem frames_precede (front : List Frame) (rest : Framed) :
    (precede front rest).frames = front ++ rest.frames := rfl

@[simp] theorem truncated_precede (front : List Frame) (rest : Framed) :
    (precede front rest).truncated = rest.truncated := rfl

end Framed

open Framed (precede nothing)

/-- Every frame takes at least one octet, so the length of the input is enough fuel. -/
def framesWithin : Nat → List UInt8 → Framed
  | 0, _ => nothing
  | _ + 1, [] => nothing
  | fuel + 1, type :: rest =>
    if type = 0 then precede [.pad1] (framesWithin fuel rest)
    else match rest with
      | [] => ⟨[], some type⟩
      | length :: rest =>
        if rest.length < length.toNat then ⟨[], some type⟩
        else precede [.tlv type (rest.take length.toNat)]
          (framesWithin fuel (rest.drop length.toNat))

def frames (bytes : List UInt8) : Framed := framesWithin bytes.length bytes

theorem framesWithin_stable (bytes : List UInt8) (fuel more : Nat)
    (enough : bytes.length ≤ fuel) (alsoEnough : bytes.length ≤ more) :
    framesWithin fuel bytes = framesWithin more bytes := by
  induction fuel generalizing bytes more with
  | zero =>
    obtain rfl : bytes = [] := List.eq_nil_of_length_eq_zero (Nat.le_zero.mp enough)
    cases more <;> rfl
  | succ fuel ih =>
    cases bytes with
    | nil => cases more <;> rfl
    | cons type rest =>
      obtain ⟨more, rfl⟩ : ∃ fewer, more = fewer + 1 :=
        Nat.exists_eq_add_one_of_ne_zero (by simp only [List.length_cons] at alsoEnough; omega)
      simp only [List.length_cons, Nat.add_le_add_iff_right] at enough alsoEnough
      cases rest with
      | nil => simp only [framesWithin, ih [] more (Nat.zero_le _) (Nat.zero_le _)]
      | cons length rest =>
        have shorter : (rest.drop length.toNat).length ≤ rest.length := by simp
        simp only [List.length_cons] at enough alsoEnough
        simp only [framesWithin,
          ih (length :: rest) more enough alsoEnough,
          ih (rest.drop length.toNat) more (by omega) (by omega)]

@[simp] theorem frames_nil : frames [] = nothing := rfl

theorem frames_zero_cons (rest : List UInt8) :
    frames (0 :: rest) = precede [.pad1] (frames rest) := rfl

theorem frames_cons_nil {type : UInt8} (proper : type ≠ 0) : frames [type] = ⟨[], some type⟩ := by
  simp [frames, framesWithin, proper]

theorem frames_cut {type length : UInt8} {rest : List UInt8} (proper : type ≠ 0)
    (cut : rest.length < length.toNat) : frames (type :: length :: rest) = ⟨[], some type⟩ := by
  simp [frames, framesWithin, proper, cut]

theorem frames_tlv {type length : UInt8} {rest : List UInt8} (proper : type ≠ 0)
    (whole : length.toNat ≤ rest.length) :
    frames (type :: length :: rest) =
      precede [.tlv type (rest.take length.toNat)] (frames (rest.drop length.toNat)) := by
  have enough : (rest.drop length.toNat).length ≤ rest.length + 1 := by simp; omega
  have same := framesWithin_stable (rest.drop length.toNat) (rest.length + 1) _ enough (le_refl _)
  simp only [frames, List.length_cons, framesWithin, if_neg proper, if_neg (not_lt.mpr whole), same]

/-- Reading a byte string from its front: the cases of the framing loop. -/
theorem framing_induction {motive : List UInt8 → Prop} (nil : motive [])
    (pad1 : ∀ rest, motive rest → motive (0 :: rest))
    (short : ∀ type, type ≠ 0 → motive [type])
    (cut : ∀ type length rest, type ≠ 0 → rest.length < length.toNat →
      motive (type :: length :: rest))
    (tlv : ∀ type length rest, type ≠ 0 → length.toNat ≤ rest.length →
      motive (rest.drop length.toNat) → motive (type :: length :: rest))
    (bytes : List UInt8) : motive bytes := by
  induction size : bytes.length using Nat.strong_induction_on generalizing bytes with
  | _ size ih =>
    subst size
    match bytes, ih with
    | [], _ => exact nil
    | type :: rest, ih =>
      by_cases padding : type = 0
      · subst padding
        exact pad1 rest (ih rest.length (by simp) rest rfl)
      · match rest, ih with
        | [], _ => exact short type padding
        | length :: rest, ih =>
          by_cases whole : length.toNat ≤ rest.length
          · exact tlv type length rest padding whole
              (ih _ (by simp; omega) (rest.drop length.toNat) rfl)
          · exact cut type length rest padding (not_le.mp whole)

/-- A byte string that ends on a frame boundary does not disturb what follows it. -/
theorem frames_append (front rest : List UInt8) (whole : (frames front).truncated = none) :
    frames (front ++ rest) = precede (frames front).frames (frames rest) := by
  induction front using framing_induction with
  | nil => simp [nothing]
  | pad1 front ih =>
    rw [frames_zero_cons] at whole ⊢
    rw [List.cons_append, frames_zero_cons, ih whole]
    simp
  | short type proper => simp [frames_cons_nil proper] at whole
  | cut type length front proper cut => simp [frames_cut proper cut] at whole
  | tlv type length front proper fits ih =>
    rw [frames_tlv proper fits] at whole ⊢
    have fitsToo : length.toNat ≤ (front ++ rest).length := by simp; omega
    rw [List.cons_append, List.cons_append, frames_tlv proper fitsToo,
      List.take_append_of_le_length fits, List.drop_append_of_le_length fits, ih whole]
    simp

/-! ## Writing frames -/

namespace Frame

def bytes : Frame → List UInt8
  | pad1 => [0]
  | tlv type value => type :: UInt8.ofNat value.length :: value

/-- A frame that reading gives back. -/
def Writable : Frame → Prop
  | pad1 => True
  | tlv type value => type ≠ 0 ∧ value.length < 256

instance decidableWritable : (frame : Frame) → Decidable frame.Writable
  | pad1 => .isTrue trivial
  | tlv type value => inferInstanceAs (Decidable (type ≠ 0 ∧ value.length < 256))

end Frame

theorem frames_bytes_append {frame : Frame} (writable : frame.Writable) (rest : List UInt8) :
    frames (frame.bytes ++ rest) = precede [frame] (frames rest) := by
  cases frame with
  | pad1 => exact frames_zero_cons rest
  | tlv type value =>
    obtain ⟨proper, small⟩ := writable
    have length : (UInt8.ofNat value.length).toNat = value.length := by
      rw [UInt8.toNat_ofNat', Nat.mod_eq_of_lt small]
    have whole : (UInt8.ofNat value.length).toNat ≤ (value ++ rest).length := by
      rw [length]; simp
    simp only [Frame.bytes, List.cons_append]
    rw [frames_tlv proper whole, length]
    simp

theorem frames_written (written : List Frame) (writable : ∀ frame ∈ written, frame.Writable)
    (rest : List UInt8) :
    frames (written.flatMap Frame.bytes ++ rest) = precede written (frames rest) := by
  induction written with
  | nil => simp
  | cons frame written ih =>
    rw [List.flatMap_cons, List.append_assoc, frames_bytes_append (writable frame (by simp)),
      ih fun later member => writable later (by simp [member])]
    simp

/-- Writing what was read gives the octets back, and every frame read can be written. -/
theorem frames_rebuild (bytes : List UInt8) (whole : (frames bytes).truncated = none) :
    (frames bytes).frames.flatMap Frame.bytes = bytes ∧
      ∀ frame ∈ (frames bytes).frames, frame.Writable := by
  induction bytes using framing_induction with
  | nil => simp [nothing]
  | pad1 rest ih =>
    rw [frames_zero_cons] at whole ⊢
    obtain ⟨same, writable⟩ := ih whole
    refine ⟨by simp [Frame.bytes, same], ?_⟩
    simp only [Framed.frames_precede, List.singleton_append, List.mem_cons, forall_eq_or_imp]
    exact ⟨trivial, writable⟩
  | short type proper => simp [frames_cons_nil proper] at whole
  | cut type length rest proper tooLong => simp [frames_cut proper tooLong] at whole
  | tlv type length rest proper fits ih =>
    rw [frames_tlv proper fits] at whole ⊢
    obtain ⟨same, writable⟩ := ih whole
    have small := length.toNat_lt
    have size : (rest.take length.toNat).length = length.toNat := by
      rw [List.length_take, Nat.min_eq_left fits]
    refine ⟨?_, ?_⟩
    · simp [Frame.bytes, same, Nat.min_eq_left fits]
    · simp only [Framed.frames_precede, List.singleton_append, List.mem_cons, forall_eq_or_imp]
      exact ⟨⟨proper, by rw [size]; exact small⟩, writable⟩

end BabelRs.Lib
