import BabelRs.Lib.Framing
import BabelRs.Lib.Metered

/-!
# Walking over frames by offset

The loop a hand-written parser runs over type-length-value framing: it indexes the octets
one by one and cuts each value out.  Every pass is counted and takes one unit of fuel, and a
loop that runs out of it panics.  As much fuel as there are octets is enough, no index leaves
its bounds, what the loop computes is a fold over the frames, and it makes at most one pass
for each octet, even if every value is walked over once more.
-/

set_option autoImplicit false

namespace BabelRs.Lib

open Checked Metered

variable {E S : Type}

def walk (cut : UInt8 → E) (handle : S → Frame → Metered E S) (body : List UInt8) :
    Nat → Nat → S → Metered E S
  | 0, offset, s => check (if offset < body.length then panics else .ok s)
  | fuel + 1, offset, s =>
    if offset < body.length then do
      pass
      let type ← check (index body offset)
      let offset := offset + 1
      if type = 0 then walk cut handle body fuel offset (← handle s .pad1)
      else if body.length ≤ offset then check (fail (cut type))
      else do
        let length := (← check (index body offset)).toNat
        let offset := offset + 1
        if (← check (sub body.length offset)) < length then check (fail (cut type))
        else do
          let value ← check (slice body offset (offset + length))
          walk cut handle body fuel (offset + length) (← handle s (.tlv type value))
    else pure s

/-- A loop over frames, and the error at the end of a truncated input. -/
def foldFrames (cut : UInt8 → E) (handle : S → Frame → Checked E S) (framed : Framed) (s : S) :
    Checked E S := do
  let result ← framed.frames.foldlM handle s
  match framed.truncated with
  | some type => fail (cut type)
  | none => return result

theorem foldFrames_precede (cut : UInt8 → E) (handle : S → Frame → Checked E S) (frame : Frame)
    (rest : Framed) (s : S) :
    foldFrames cut handle (Framed.precede [frame] rest) s =
      handle s frame >>= foldFrames cut handle rest := by
  simp only [foldFrames, Framed.frames_precede, Framed.truncated_precede, List.singleton_append,
    List.foldlM_cons, bind_assoc]
  rfl

variable (E) in
/-- Reading the length octet of a frame, and how much is left behind it. -/
theorem length_read (front : List UInt8) (type length : UInt8) (rest : List UInt8) :
    index (front ++ type :: length :: rest) (front.length + 1) = (.ok length : Checked E UInt8) ∧
      sub (front ++ type :: length :: rest).length (front.length + 1 + 1) =
        (.ok rest.length : Checked E Nat) := by
  have shifted := index_append_cons E (front ++ [type]) length rest
  refine ⟨by simpa using shifted, ?_⟩
  have size : (front ++ type :: length :: rest).length = front.length + 1 + 1 + rest.length := by
    simp
    omega
  rw [size, sub_ok (Nat.le_add_right _ _), Nat.add_sub_cancel_left]

variable (E) in
theorem value_read (front : List UInt8) (type length : UInt8) (rest : List UInt8)
    (fits : length.toNat ≤ rest.length) :
    slice (front ++ type :: length :: rest) (front.length + 1 + 1)
      (front.length + 1 + 1 + length.toNat) =
      (.ok (rest.take length.toNat) : Checked E (List UInt8)) := by
  have whole : front ++ type :: length :: rest =
      (front ++ [type, length]) ++ (rest.take length.toNat ++ rest.drop length.toNat) := by
    simp
  rw [whole]
  exact slice_append (by simp) (by simp [fits])

theorem exists_fuel {octet : UInt8} {rest : List UInt8} {fuel : Nat}
    (enough : (octet :: rest).length ≤ fuel) : ∃ fewer, fuel = fewer + 1 := by
  refine Nat.exists_eq_add_one_of_ne_zero ?_
  rw [List.length_cons] at enough
  omega

theorem walk_eq (cut : UInt8 → E) (handle : S → Frame → Metered E S) (front rest : List UInt8)
    (fuel : Nat) (enough : rest.length ≤ fuel) (s : S) :
    (walk cut handle (front ++ rest) fuel front.length s).result =
      foldFrames cut (fun s frame => (handle s frame).result) (frames rest) s := by
  induction rest using framing_induction generalizing front fuel s with
  | nil => cases fuel <;> simp [walk, foldFrames, Framed.nothing, pure, Except.pure]
  | pad1 rest ih =>
    obtain ⟨fuel, rfl⟩ := exists_fuel enough
    have onward : ∀ next, (walk cut handle (front ++ 0 :: rest) fuel (front.length + 1) next).result =
        foldFrames cut (fun s frame => (handle s frame).result) (frames rest) next := by
      intro next
      have shifted := ih (front ++ [0]) fuel (by simpa using enough) next
      simpa using shifted
    rw [frames_zero_cons, foldFrames_precede, walk, if_pos (by simp), result_pass_bind,
      result_bind, result_check, index_append_cons E]
    simp only [ok_bind, if_true, result_bind, onward]
  | short type proper =>
    obtain ⟨fuel, rfl⟩ := exists_fuel enough
    rw [frames_cons_nil proper, walk, if_pos (by simp), result_pass_bind,
      result_bind, result_check, index_append_cons E]
    simp [proper, foldFrames, pure, Except.pure]
  | cut type length rest proper tooLong =>
    obtain ⟨fuel, rfl⟩ := exists_fuel enough
    obtain ⟨second, left⟩ := length_read E front type length rest
    rw [frames_cut proper tooLong, walk, if_pos (by simp), result_pass_bind,
      result_bind, result_check, index_append_cons E]
    simp only [ok_bind, result_ite, result_bind, result_check, if_neg proper, second, left,
      if_pos tooLong]
    rw [if_neg (by simp)]
    rfl
  | tlv type length rest proper fits ih =>
    obtain ⟨fuel, rfl⟩ := exists_fuel enough
    obtain ⟨second, left⟩ := length_read E front type length rest
    have value := value_read E front type length rest fits
    have onward : ∀ next, (walk cut handle (front ++ type :: length :: rest) fuel
        (front.length + 1 + 1 + length.toNat) next).result =
        foldFrames cut (fun s frame => (handle s frame).result) (frames (rest.drop length.toNat))
          next := by
      intro next
      have shifted := ih (front ++ type :: length :: rest.take length.toNat) fuel
        (by simp only [List.length_cons, List.length_drop] at enough ⊢; omega) next
      have there : (front ++ type :: length :: rest.take length.toNat).length =
          front.length + 1 + 1 + length.toNat := by
        simp [fits]
        omega
      rw [there] at shifted
      simpa using shifted
    rw [frames_tlv proper fits, foldFrames_precede, walk, if_pos (by simp), result_pass_bind,
      result_bind, result_check, index_append_cons E]
    simp only [ok_bind, result_ite, result_bind, result_check, if_neg proper, second, left,
      if_neg (not_lt.mpr fits), value, onward]
    rw [if_neg (by simp)]

/-! ## Passes -/

def Frame.payload : Frame → List UInt8
  | .pad1 => []
  | .tlv _ value => value

/-- A handler that walks over no more than the value it is given leaves room for the pass it is
called from: a frame has one octet or two besides its value. -/
theorem passes_walk_le (cut : UInt8 → E) {handle : S → Frame → Metered E S}
    (handled : ∀ s frame, (handle s frame).passes ≤ frame.payload.length) (body : List UInt8)
    (fuel offset : Nat) (s : S) :
    (walk cut handle body fuel offset s).passes ≤ body.length - offset := by
  induction fuel generalizing offset s with
  | zero => exact Nat.zero_le _
  | succ fuel ih =>
    rw [walk]
    split
    · rename_i inside
      have first : body.length - offset = 1 + (body.length - (offset + 1)) := by omega
      rw [first]
      refine passes_bind_le (le_refl 1) fun _ _ => passes_check_bind_le fun type _ => ?_
      split
      · simpa [Frame.payload] using passes_bind_le (handled s .pad1) fun next _ => ih (offset + 1) next
      dsimp only
      split
      · exact Nat.zero_le _
      refine passes_check_bind_le fun length _ => passes_check_bind_le fun left _ => ?_
      split
      · exact Nat.zero_le _
      refine passes_check_bind_le fun value cutOut => ?_
      have size := length_of_slice cutOut
      have fits := stop_le_of_slice cutOut
      refine (passes_bind_le (handled s (.tlv type value)) fun next _ => ih _ next).trans ?_
      rw [Frame.payload, size]
      omega
    · exact Nat.zero_le _

end BabelRs.Lib
