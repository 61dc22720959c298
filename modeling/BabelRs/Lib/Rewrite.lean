import BabelRs.Lib.Walk

/-!
# Rewriting frames in place

The loop of a parser that edits the buffer it walks over.  If an edit stays inside the
value of its frame and keeps its length, the loop rewrites the values one by one, and
the octets before and behind the range it walks over stay as they are.
-/

set_option autoImplicit false

namespace BabelRs.Lib

open Checked

variable {E : Type}

/-- `edit type data offset length` edits the value that starts at `offset`. -/
def rewrite (cut : UInt8 → E)
    (edit : UInt8 → List UInt8 → Nat → Nat → Checked E (List UInt8)) :
    Nat → List UInt8 → Nat → Nat → Checked E (List UInt8)
  | 0, data, offset, stop => if offset < stop then panics else .ok data
  | fuel + 1, data, offset, stop =>
    if offset < stop then do
      let type ← index data offset
      let offset := offset + 1
      if type = 0 then rewrite cut edit fuel data offset stop
      else if stop ≤ offset then fail (cut type)
      else do
        let length := (← index data offset).toNat
        let offset := offset + 1
        if (← sub stop offset) < length then fail (cut type)
        else do
          let data ← edit type data offset length
          rewrite cut edit fuel data (offset + length) stop
    else .ok data

/-- The same edits on values. -/
def Frame.edit (change : UInt8 → List UInt8 → Checked E (List UInt8)) : Frame → Checked E Frame
  | .pad1 => .ok .pad1
  | .tlv type value => (change type value).map (Frame.tlv type)

def rewriteFrames (cut : UInt8 → E) (change : UInt8 → List UInt8 → Checked E (List UInt8))
    (framed : Framed) : Checked E (List Frame) := do
  let edited ← framed.frames.mapM (Frame.edit change)
  match framed.truncated with
  | some type => fail (cut type)
  | none => return edited

theorem rewriteFrames_precede (cut : UInt8 → E)
    (change : UInt8 → List UInt8 → Checked E (List UInt8)) (frame : Frame) (rest : Framed) :
    rewriteFrames cut change (Framed.precede [frame] rest) =
      Frame.edit change frame >>= fun edited =>
        (rewriteFrames cut change rest).map (edited :: ·) := by
  simp only [rewriteFrames, Framed.frames_precede, Framed.truncated_precede,
    List.singleton_append, List.mapM_cons]
  cases Frame.edit change frame with
  | error fault => rfl
  | ok edited =>
    cases List.mapM (Frame.edit change) rest.frames with
    | error fault => rfl
    | ok others => cases rest.truncated <;> rfl

/-- An edit that stays inside its value, and the change it makes there. -/
structure Local (edit : UInt8 → List UInt8 → Nat → Nat → Checked E (List UInt8))
    (change : UInt8 → List UInt8 → Checked E (List UInt8)) : Prop where
  edits : ∀ type front value back, edit type (front ++ (value ++ back)) front.length value.length =
    (change type value).map fun changed => front ++ (changed ++ back)
  length : ∀ type value changed, change type value = .ok changed → changed.length = value.length

theorem rewrite_eq (cut : UInt8 → E)
    {edit : UInt8 → List UInt8 → Nat → Nat → Checked E (List UInt8)}
    {change : UInt8 → List UInt8 → Checked E (List UInt8)} (inside : Local edit change)
    (body front back : List UInt8) (fuel : Nat) (enough : body.length ≤ fuel) :
    rewrite cut edit fuel (front ++ (body ++ back)) front.length (front.length + body.length) =
      (rewriteFrames cut change (frames body)).map fun edited =>
        front ++ (edited.flatMap Frame.bytes ++ back) := by
  induction body using framing_induction generalizing front fuel with
  | nil => cases fuel <;> simp [rewrite, rewriteFrames, Framed.nothing, pure, Except.pure, Except.map]
  | pad1 rest ih =>
    obtain ⟨fuel, rfl⟩ : ∃ fewer, fuel = fewer + 1 :=
      Nat.exists_eq_add_one_of_ne_zero (by simp only [List.length_cons] at enough; omega)
    have onward := ih (front ++ [0]) fuel (by simpa using enough)
    simp only [List.append_assoc, List.singleton_append, List.length_append,
      List.length_singleton] at onward
    rw [frames_zero_cons, rewriteFrames_precede, rewrite, if_pos (by simp), List.cons_append,
      index_append_cons E]
    simp only [ok_bind, if_true, List.length_cons]
    rw [show front.length + (rest.length + 1) = front.length + 1 + rest.length by omega, onward]
    cases rewriteFrames cut change (frames rest) <;> rfl
  | short type proper =>
    obtain ⟨fuel, rfl⟩ : ∃ fewer, fuel = fewer + 1 :=
      Nat.exists_eq_add_one_of_ne_zero (by simp only [List.length_cons] at enough; omega)
    rw [frames_cons_nil proper, rewrite, if_pos (by simp), List.singleton_append,
      index_append_cons E]
    simp [ok_bind, proper, rewriteFrames, fail, Except.map, pure, Except.pure]
  | cut type length rest proper tooLong =>
    obtain ⟨fuel, rfl⟩ : ∃ fewer, fuel = fewer + 1 :=
      Nat.exists_eq_add_one_of_ne_zero (by simp only [List.length_cons] at enough; omega)
    obtain ⟨second, -⟩ := length_read E front type length (rest ++ back)
    have left : (sub (front.length + (rest.length + 1 + 1)) (front.length + 1 + 1) :
        Checked E Nat) = .ok rest.length := by
      rw [sub_ok (by omega)]
      congr 1
      omega
    rw [frames_cut proper tooLong, rewrite, if_pos (by simp), List.cons_append, List.cons_append,
      index_append_cons E]
    simp only [ok_bind, if_neg proper, second, List.length_cons, left, if_pos tooLong]
    rw [if_neg (by omega)]
    rfl
  | tlv type length rest proper fits ih =>
    obtain ⟨fuel, rfl⟩ : ∃ fewer, fuel = fewer + 1 :=
      Nat.exists_eq_add_one_of_ne_zero (by simp only [List.length_cons] at enough; omega)
    obtain ⟨second, -⟩ := length_read E front type length (rest ++ back)
    have left : (sub (front.length + (rest.length + 1 + 1)) (front.length + 1 + 1) :
        Checked E Nat) = .ok rest.length := by
      rw [sub_ok (by omega)]
      congr 1
      omega
    have size : (rest.take length.toNat).length = length.toNat := by
      rw [List.length_take, Nat.min_eq_left fits]
    -- the buffer as the edit sees it
    have split : front ++ type :: length :: (rest ++ back) =
        (front ++ [type, length]) ++
          (rest.take length.toNat ++ (rest.drop length.toNat ++ back)) := by
      rw [← List.append_assoc (rest.take length.toNat), List.take_append_drop]
      simp
    have edited := inside.edits type (front ++ [type, length]) (rest.take length.toNat)
      (rest.drop length.toNat ++ back)
    rw [← split, size] at edited
    have there : (front ++ [type, length]).length = front.length + 1 + 1 := by simp
    rw [there] at edited
    rw [frames_tlv proper fits, rewriteFrames_precede, rewrite, if_pos (by simp),
      List.cons_append, List.cons_append, index_append_cons E]
    simp only [ok_bind, if_neg proper, second, List.length_cons, left,
      if_neg (not_lt.mpr fits), edited]
    rw [if_neg (by omega)]
    cases changes : change type (rest.take length.toNat) with
    | error fault => simp [Frame.edit, changes, Except.map, bind, Except.bind]
    | ok changed =>
      have same : changed.length = length.toNat :=
        (inside.length type _ _ changes).trans size
      have onward := ih (front ++ type :: length :: changed) fuel
        (by simp only [List.length_cons, List.length_drop] at enough ⊢; omega)
      have reached : (front ++ type :: length :: changed).length =
          front.length + 1 + 1 + length.toNat := by
        simp [same]
        omega
      have stop : front.length + (rest.length + 1 + 1) =
          front.length + 1 + 1 + length.toNat + (rest.drop length.toNat).length := by
        rw [List.length_drop]
        omega
      have octet : UInt8.ofNat changed.length = length := by
        rw [same, UInt8.ofNat_toNat]
      rw [reached] at onward
      simp only [Frame.edit, changes, Except.map, ok_bind, stop]
      simp only [List.append_assoc, List.cons_append, List.nil_append] at onward ⊢
      rw [onward]
      cases rewriteFrames cut change (frames (rest.drop length.toNat)) with
      | error fault => rfl
      | ok others => simp [Except.map, Frame.bytes, octet]

/-- A change that cannot fail leaves only the truncation to report. -/
theorem rewriteFrames_pure (cut : UInt8 → E) {change : UInt8 → List UInt8 → Checked E (List UInt8)}
    {relabel : Frame → Frame} (same : ∀ frame, Frame.edit change frame = .ok (relabel frame))
    (framed : Framed) :
    rewriteFrames cut change framed = match framed.truncated with
      | some type => fail (cut type)
      | none => .ok (framed.frames.map relabel) := by
  have mapped : framed.frames.mapM (Frame.edit change) = .ok (framed.frames.map relabel) := by
    induction framed.frames with
    | nil => rfl
    | cons frame rest ih =>
      rw [List.mapM_cons, same, ok_bind, ih]
      rfl
  rw [rewriteFrames, mapped]
  rfl

end BabelRs.Lib
