import Mathlib.Data.List.Forall2
import BabelRs.Wire.Prefix

/-!
# Texts of the daemon's configuration

Interface patterns (`wildcard_match` of `config.rs`) and router identities
(`parse_router_id` and `format_router_id` of `state.rs`, and the `Display` of
`RouterId`).
-/

set_option autoImplicit false

namespace BabelRs

open Lib

/-! ## Interface patterns -/

namespace Wildcard

def asterisk : UInt8 := 42

def questionMark : UInt8 := 63

/-- `current[index]`, from `previous[index]`, `current[index - 1]` and
`previous[index - 1]`. -/
def cell (token byte : UInt8) (above left corner : Bool) : Bool :=
  if token = asterisk then above || left
  else if token = questionMark then corner
  else corner && token == byte

/-- The inner loop, from the cell `left` and the one above it on. -/
def cells (token : UInt8) : Bool → Bool → List Bool → List UInt8 → List Bool
  | left, corner, above :: previous, byte :: value =>
    let current := cell token byte above left corner
    current :: cells token current above previous value
  | _, _, _, _ => []

def row (value : List UInt8) (previous : List Bool) (token : UInt8) : List Bool :=
  match previous with
  | [] => []
  | first :: rest =>
    let start := token = asterisk && first
    start :: cells token start first rest value

def firstRow (value : List UInt8) : List Bool := true :: List.replicate value.length false

end Wildcard

def wildcardMatch (pattern value : List UInt8) : Bool :=
  (pattern.foldl (Wildcard.row value) (Wildcard.firstRow value)).getD value.length false

namespace Wildcard

/-- What one octet of a pattern stands for. -/
def Fits (token : UInt8) (piece : List UInt8) : Prop :=
  if token = asterisk then True
  else if token = questionMark then piece.length = 1
  else piece = [token]

/-- Texts that are a text of `front` and then a piece for one more token. -/
def Next (front : List UInt8 → Prop) (token : UInt8) (value : List UInt8) : Prop :=
  ∃ before piece, before ++ piece = value ∧ front before ∧ Fits token piece

theorem foldl_next (pattern : List UInt8) (front : List UInt8 → Prop) (value : List UInt8) :
    pattern.foldl Next front value ↔
      ∃ before pieces, before ++ pieces.flatten = value ∧ front before ∧
        List.Forall₂ Fits pattern pieces := by
  induction pattern generalizing front with
  | nil => simp
  | cons token pattern ih =>
    rw [List.foldl_cons, ih]
    constructor
    · rintro ⟨before, pieces, rfl, ⟨first, piece, rfl, held, fits⟩, fit⟩
      exact ⟨first, piece :: pieces, by simp, held, fit.cons fits⟩
    · rintro ⟨before, pieces, rfl, held, fit⟩
      obtain ⟨piece, rest, fits, others, rfl⟩ := List.forall₂_cons_left_iff.mp fit
      exact ⟨before ++ piece, rest, by simp, ⟨before, piece, rfl, held, fits⟩, others⟩

open Classical in
/-- The row of a set of texts: one cell for each octet, the text read up to it. -/
noncomputable def cellsOf (front : List UInt8 → Prop) : List UInt8 → List UInt8 → List Bool
  | _, [] => []
  | read, byte :: rest => decide (front (read ++ [byte])) :: cellsOf front (read ++ [byte]) rest

open Classical in
noncomputable def rowOf (front : List UInt8 → Prop) (value : List UInt8) : List Bool :=
  decide (front []) :: cellsOf front [] value

section Rows

variable (front : List UInt8 → Prop) (token byte : UInt8) (read rest : List UInt8)

theorem next_nil : Next front token [] ↔ token = asterisk ∧ front [] := by
  constructor
  · rintro ⟨before, piece, empty, held, fits⟩
    obtain ⟨rfl, rfl⟩ := List.append_eq_nil_iff.mp empty
    refine ⟨?_, held⟩
    by_contra other
    simp [Fits, other] at fits
  · rintro ⟨rfl, held⟩
    exact ⟨[], [], rfl, held, by simp [Fits]⟩

/-- A nonempty piece ends with the last octet of the text. -/
theorem next_concat :
    Next front token (read ++ [byte]) ↔
      (front (read ++ [byte]) ∧ Fits token []) ∨
        ∃ before piece, before ++ piece = read ∧ front before ∧ Fits token (piece ++ [byte]) := by
  constructor
  · rintro ⟨before, piece, whole, held, fits⟩
    rcases List.eq_nil_or_concat' piece with rfl | ⟨piece, last, rfl⟩
    · rw [List.append_nil] at whole
      exact Or.inl ⟨whole ▸ held, fits⟩
    · rw [← List.append_assoc] at whole
      obtain ⟨rfl, same⟩ := List.append_inj' whole rfl
      rw [same] at fits
      exact Or.inr ⟨before, piece, rfl, held, fits⟩
  · rintro (⟨held, fits⟩ | ⟨before, piece, rfl, held, fits⟩)
    · exact ⟨read ++ [byte], [], by simp, held, fits⟩
    · exact ⟨before, piece ++ [byte], by simp, held, fits⟩

open Classical in
theorem cell_eq :
    cell token byte (decide (front (read ++ [byte]))) (decide (Next front token read))
      (decide (front read)) = decide (Next front token (read ++ [byte])) := by
  rw [Bool.eq_iff_iff, decide_eq_true_iff, next_concat]
  by_cases star : token = asterisk
  · simp [cell, Fits, Next, star]
  · by_cases question : token = questionMark
    · have other : questionMark ≠ asterisk := by decide
      simp [cell, Fits, question, other]
    · simp [cell, Fits, star, question, List.append_eq_singleton_iff, @eq_comm _ token]

open Classical in
theorem cells_eq :
    cells token (decide (Next front token read)) (decide (front read)) (cellsOf front read rest)
      rest = cellsOf (Next front token) read rest := by
  induction rest generalizing read with
  | nil => rfl
  | cons byte rest ih => simp only [cells, cellsOf, cell_eq, ih]

theorem row_eq (value : List UInt8) :
    row value (rowOf front value) token = rowOf (Next front token) value := by
  classical
  have start : (decide (token = asterisk) && decide (front [])) = decide (Next front token []) := by
    rw [decide_eq_decide.mpr (next_nil front token), Bool.decide_and]
  simp only [row, rowOf, start, cells_eq]

theorem rows_eq (pattern value : List UInt8) :
    pattern.foldl (row value) (rowOf front value) = rowOf (pattern.foldl Next front) value := by
  induction pattern generalizing front with
  | nil => rfl
  | cons token pattern ih => rw [List.foldl_cons, row_eq, ih, List.foldl_cons]

theorem firstRow_eq (value : List UInt8) : firstRow value = rowOf (· = []) value := by
  have cells : ∀ read, List.replicate value.length false = cellsOf (· = []) read value := by
    induction value with
    | nil => simp [cellsOf]
    | cons byte rest ih => simp [cellsOf, List.replicate_succ, ← ih]
  simp [firstRow, rowOf, ← cells]

open Classical in
theorem getD_cellsOf :
    (decide (front read) :: cellsOf front read rest).getD rest.length false =
      decide (front (read ++ rest)) := by
  induction rest generalizing read with
  | nil => simp
  | cons byte rest ih =>
    rw [cellsOf, List.length_cons, List.getD_cons_succ, ih, List.append_assoc]
    rfl

end Rows

end Wildcard

/-- An interface pattern matches exactly the names that split into one piece
for each of its octets. -/
theorem wildcardMatch_iff_splits (pattern value : List UInt8) :
    wildcardMatch pattern value = true ↔
      ∃ pieces, List.Forall₂ Wildcard.Fits pattern pieces ∧ pieces.flatten = value := by
  classical
  have last : wildcardMatch pattern value = decide (pattern.foldl Wildcard.Next (· = []) value) := by
    rw [wildcardMatch, Wildcard.firstRow_eq, Wildcard.rows_eq]
    exact Wildcard.getD_cellsOf _ [] value
  rw [last, decide_eq_true_iff, Wildcard.foldl_next]
  constructor
  · rintro ⟨before, pieces, whole, rfl, fit⟩
    exact ⟨pieces, fit, whole⟩
  · rintro ⟨pieces, fit, whole⟩
    exact ⟨[], pieces, whole, rfl, fit⟩

/-! ## Router identities -/

/-- `char::to_digit(16)`. -/
def toDigit (letter : Char) : Option Nat :=
  let code := letter.toNat
  if 48 ≤ code ∧ code ≤ 57 then some (code - 48)
  else if 97 ≤ code ∧ code ≤ 102 then some (code - 87)
  else if 65 ≤ code ∧ code ≤ 70 then some (code - 55)
  else none

/-- The digits of `u8::from_str_radix(_, 16)`, with its overflow check. -/
def digitsValue (digits : List Char) : Option UInt8 :=
  (digits.foldlM (fun value letter =>
    (toDigit letter).bind fun digit =>
      let next := value * 16 + digit
      if next < 256 then some next else none) 0).map UInt8.ofNat

/-- `u8::from_str_radix(_, 16)`: a sign `+` may stand before the digits, and a
sign alone is an error. -/
def fromStrRadix : List Char → Option UInt8
  | [] => none
  | [letter] => if letter = '+' ∨ letter = '-' then none else digitsValue [letter]
  | letter :: digits =>
    if letter = '+' then digitsValue digits else digitsValue (letter :: digits)

/-- The octets of the slices `[index * 2..index * 2 + 2]`. -/
def rawOctets : List Char → Option (List UInt8)
  | [] => some []
  | [_] => some []
  | high :: low :: rest => do
    let byte ← fromStrRadix [high, low]
    let raw ← rawOctets rest
    return byte :: raw

def compact (value : List Char) : List Char := value.filter (· ≠ ':')

def isAscii (text : List Char) : Bool := text.all fun letter => letter.toNat < 128

/-- `String::len`, in octets. -/
def textLength (text : List Char) : Nat := (text.map Char.utf8Size).sum

def parseRouterId (value : List Char) : Option RouterId :=
  let digits := compact value
  if textLength digits ≠ 16 ∨ isAscii digits = false then none
  else (rawOctets digits).bind RouterId.ofOctets

def hexDigit (digit : Nat) : Char := Char.ofNat (if digit < 10 then 48 + digit else 87 + digit)

/-- `{value:02x}`. -/
def hexOctet (value : UInt8) : List Char :=
  [hexDigit (value.toNat / 16), hexDigit (value.toNat % 16)]

def formatRouterId (id : RouterId) : List Char := id.toOctets.flatMap hexOctet

def RouterId.display (id : RouterId) : List Char := [':'].intercalate (id.toOctets.map hexOctet)

def places (raw : List UInt8) : List Nat :=
  raw.flatMap fun octet => [octet.toNat / 16, octet.toNat % 16]

def RouterId.places (id : RouterId) : List Nat := BabelRs.places id.toOctets

def IsDigit (letter : Char) (place : Nat) : Prop := toDigit letter = some place

/-- A text of sixteen hexadecimal digits, those of `id`. -/
def Denotes (digits : List Char) (id : RouterId) : Prop :=
  digits.length = 16 ∧ List.Forall₂ IsDigit digits id.places

/-- The text with each `+` that begins a pair read as a zero. -/
def unsigned : List Char → List Char
  | [] => []
  | [last] => [last]
  | high :: low :: rest => (if high = '+' then '0' else high) :: low :: unsigned rest

section Digits

variable {letter : Char} {place : Nat} {digits : List Char} {raw : List UInt8} {id : RouterId}

theorem IsDigit.bounds (digit : IsDigit letter place) : place < 16 ∧ letter.toNat < 128 := by
  simp only [IsDigit, toDigit] at digit
  split_ifs at digit <;> simp only [Option.some.injEq] at digit <;> omega

theorem isDigit_hexDigit (small : place < 16) : IsDigit (hexDigit place) place := by
  revert place
  unfold IsDigit
  decide

theorem digitsValue_pair (high low : Char) (octet : UInt8) :
    digitsValue [high, low] = some octet ↔
      IsDigit high (octet.toNat / 16) ∧ IsDigit low (octet.toNat % 16) := by
  unfold IsDigit
  cases first : toDigit high with
  | none => simp [digitsValue, first]
  | some upper =>
    have upperSmall := (IsDigit.bounds first).1
    have fits : upper < 256 := by omega
    cases second : toDigit low with
    | none => simp [digitsValue, first, second, fits]
    | some lower =>
      have lowerSmall := (IsDigit.bounds second).1
      have sum : upper * 16 + lower < 256 := by omega
      simp only [digitsValue, List.foldlM_cons, List.foldlM_nil, first, second, fits, sum,
        Option.bind_some, Nat.zero_mul, Nat.zero_add, if_true, Option.map_some,
        Option.some.injEq, Option.pure_def, Option.bind_eq_bind]
      rw [← UInt8.toNat_inj, UInt8.toNat_ofNat_of_lt' sum]
      omega

/-- A sign before the low digit counts as a zero. -/
theorem fromStrRadix_pair (high low : Char) (octet : UInt8) :
    fromStrRadix [high, low] = some octet ↔
      IsDigit (if high = '+' then '0' else high) (octet.toNat / 16) ∧
        IsDigit low (octet.toNat % 16) := by
  rw [← digitsValue_pair]
  by_cases signed : high = '+'
  · have zero : toDigit '0' = some 0 := by decide
    simp [fromStrRadix, signed, digitsValue, zero]
  · simp [fromStrRadix, signed]

theorem rawOctets_pair_iff (high low : Char) (rest : List Char) (octet : UInt8) :
    rawOctets (high :: low :: rest) = some (octet :: raw) ↔
      fromStrRadix [high, low] = some octet ∧ rawOctets rest = some raw := by
  simp [rawOctets, Option.bind_eq_some_iff]

theorem rawOctets_length (parsed : rawOctets digits = some raw) : raw.length = digits.length / 2 := by
  induction digits using rawOctets.induct generalizing raw with
  | case1 => simp_all [rawOctets]
  | case2 last => simp_all [rawOctets]
  | case3 high low rest ih =>
    cases raw with
    | nil => simp [rawOctets, Option.bind_eq_some_iff] at parsed
    | cons octet raw =>
      have rest := ih ((rawOctets_pair_iff high low rest octet).mp parsed).2
      simp only [List.length_cons] at rest ⊢
      omega

theorem rawOctets_iff :
    rawOctets digits = some raw ∧ digits.length = 2 * raw.length ↔
      List.Forall₂ IsDigit (unsigned digits) (places raw) := by
  induction digits using rawOctets.induct generalizing raw with
  | case1 => cases raw <;> simp [rawOctets, unsigned, places]
  | case2 last => cases raw <;> simp [rawOctets, unsigned, places]
  | case3 high low rest ih =>
    cases raw with
    | nil => simp [unsigned, places]
    | cons octet raw =>
      have next : places (octet :: raw) =
        octet.toNat / 16 :: octet.toNat % 16 :: places raw := rfl
      rw [rawOctets_pair_iff, unsigned, next, List.forall₂_cons, List.forall₂_cons, ← ih,
        fromStrRadix_pair]
      have lengths : (high :: low :: rest).length = 2 * (octet :: raw).length ↔
          rest.length = 2 * raw.length := by
        simp only [List.length_cons]
        omega
      rw [lengths]
      simp only [and_assoc]

theorem length_unsigned : (unsigned digits).length = digits.length := by
  induction digits using unsigned.induct with
  | case1 => rfl
  | case2 last => rfl
  | case3 high low rest ih => simp [unsigned, ih]

theorem unsigned_eq (plain : '+' ∉ digits) : unsigned digits = digits := by
  induction digits using unsigned.induct with
  | case1 => rfl
  | case2 last => rfl
  | case3 high low rest ih =>
    simp only [List.mem_cons, not_or] at plain
    rw [unsigned, if_neg (Ne.symm plain.1), ih plain.2.2]

theorem textLength_eq (plain : isAscii digits = true) : textLength digits = digits.length := by
  induction digits with
  | nil => rfl
  | cons letter rest ih =>
    simp only [isAscii, List.all_cons, Bool.and_eq_true, decide_eq_true_eq] at plain
    have one : letter.utf8Size = 1 := by
      have small : letter.val ≤ 0x7f := Nat.le_of_lt_succ plain.1
      simp [Char.utf8Size, small]
    have rest := ih plain.2
    simp only [textLength, List.map_cons, List.sum_cons, List.length_cons] at rest ⊢
    omega

theorem isDigit_of_mem {values : List Nat} (all : List.Forall₂ IsDigit digits values) :
    ∀ letter ∈ digits, ∃ place, IsDigit letter place := by
  induction all with
  | nil => simp
  | cons digit _ ih =>
    intro letter member
    rcases List.mem_cons.mp member with rfl | member
    · exact ⟨_, digit⟩
    · exact ih letter member

theorem isAscii_of_unsigned (digit : ∀ letter ∈ unsigned digits, ∃ place, IsDigit letter place) :
    isAscii digits = true := by
  induction digits using unsigned.induct with
  | case1 => rfl
  | case2 last =>
    obtain ⟨place, found⟩ := digit last (by simp [unsigned])
    simpa [isAscii] using found.bounds.2
  | case3 high low rest ih =>
    rw [unsigned] at digit
    obtain ⟨first, firstDigit⟩ := digit _ List.mem_cons_self
    obtain ⟨second, secondDigit⟩ := digit low (by simp)
    have highSmall : high.toNat < 128 := by
      by_cases signed : high = '+'
      · rw [signed]
        decide
      · rw [if_neg signed] at firstDigit
        exact firstDigit.bounds.2
    have restSmall := ih fun letter member => digit letter (by simp [member])
    simp only [isAscii, List.all_cons, Bool.and_eq_true, decide_eq_true_eq] at restSmall ⊢
    exact ⟨highSmall, secondDigit.bounds.2, restSmall⟩

theorem RouterId.new_octets (id : RouterId) : RouterId.new id.octets = some id := by
  exact dif_neg (not_or.mpr ⟨id.notZero, id.notOnes⟩)

theorem RouterId.ofOctets_eq_some (size : raw.length = 8) :
    RouterId.ofOctets raw = some id ↔ raw = id.toOctets := by
  have read := toBe_ofBe raw
  rw [size] at read
  constructor
  · intro made
    have octets : BitVec.ofNat 64 (ofBe raw) = id.octets := by
      unfold RouterId.ofOctets RouterId.new at made
      split_ifs at made
      rw [← Option.some.inj made]
    have whole : ofBe raw % 2 ^ 64 = ofBe raw := (ofBe_toBe 8 _).symm.trans (congrArg ofBe read)
    rw [RouterId.toOctets, ← octets, BitVec.toNat_ofNat, whole, read]
  · rintro rfl
    have whole : ofBe (toBe 8 id.octets.toNat) = id.octets.toNat := ofBe_toBe_of_lt id.octets.isLt
    rw [RouterId.ofOctets, RouterId.toOctets, whole, BitVec.ofNat_toNat, BitVec.setWidth_eq,
      RouterId.new_octets]

theorem parseRouterId_eq_some (value : List Char) (id : RouterId) :
    parseRouterId value = some id ↔ Denotes (unsigned (compact value)) id := by
  have size : id.toOctets.length = 8 := length_toBe 8 _
  unfold parseRouterId Denotes RouterId.places
  rw [length_unsigned, ← rawOctets_iff, size]
  constructor
  · intro parsed
    by_cases refused : textLength (compact value) ≠ 16 ∨ isAscii (compact value) = false
    · rw [if_pos refused] at parsed
      cases parsed
    · rw [if_neg refused, Option.bind_eq_some_iff] at parsed
      obtain ⟨raw, octets, made⟩ := parsed
      simp only [not_or, not_not, Bool.not_eq_false] at refused
      have length : (compact value).length = 16 := textLength_eq refused.2 ▸ refused.1
      have same := (RouterId.ofOctets_eq_some (by rw [rawOctets_length octets, length])).mp made
      exact ⟨length, same ▸ octets, length⟩
  · rintro ⟨length, octets, -⟩
    have digits := rawOctets_iff.mp ⟨octets, by rw [length, size]⟩
    have plain := isAscii_of_unsigned (isDigit_of_mem digits)
    rw [if_neg (by simp [textLength_eq plain, length, plain]), octets]
    exact (RouterId.ofOctets_eq_some size).mpr rfl

theorem Denotes.unsigned_eq (denoted : Denotes digits id) : unsigned digits = digits := by
  apply BabelRs.unsigned_eq
  intro signed
  obtain ⟨place, digit⟩ := isDigit_of_mem denoted.2 _ signed
  cases digit

theorem isDigit_hexOctets (raw : List UInt8) :
    List.Forall₂ IsDigit (raw.flatMap hexOctet) (places raw) := by
  induction raw with
  | nil => exact List.Forall₂.nil
  | cons octet raw ih =>
    have small := octet.toNat_lt
    exact (ih.cons (isDigit_hexDigit (Nat.mod_lt _ (by decide)))).cons
      (isDigit_hexDigit (by omega))

theorem compact_hexOctets (raw : List UInt8) :
    compact (raw.flatMap hexOctet) = raw.flatMap hexOctet := by
  apply List.filter_eq_self.mpr
  intro letter member
  obtain ⟨place, digit⟩ := isDigit_of_mem (isDigit_hexOctets raw) letter member
  apply decide_eq_true
  rintro rfl
  cases digit

theorem compact_display (raw : List UInt8) :
    compact ([':'].intercalate (raw.map hexOctet)) = raw.flatMap hexOctet := by
  induction raw with
  | nil => rfl
  | cons octet rest ih =>
    have first := compact_hexOctets [octet]
    rw [List.flatMap_singleton] at first
    cases rest with
    | nil => simpa using first
    | cons next rest =>
      have split : [':'].intercalate ((octet :: next :: rest).map hexOctet) =
          hexOctet octet ++ ':' :: [':'].intercalate ((next :: rest).map hexOctet) := by
        simp [List.intercalate]
      rw [split, List.flatMap_cons, ← ih]
      simp only [compact, List.filter_append] at first ⊢
      rw [first]
      rfl

theorem parseRouterId_eq_of_compact (value : List Char)
    (written : compact value = id.toOctets.flatMap hexOctet) : parseRouterId value = some id := by
  have denoted : Denotes (compact value) id := by
    rw [written]
    refine ⟨?_, isDigit_hexOctets _⟩
    rw [(isDigit_hexOctets _).length_eq]
    simp [places, RouterId.toOctets]
  rw [parseRouterId_eq_some, denoted.unsigned_eq]
  exact denoted

end Digits

/-- The parser reads a text as the identity of its sixteen digits, except when
taking a `+` at the start of a pair for a zero makes an identity of a text that
is none.  The two texts of an identity are always read back. -/
theorem parseRouterId_is_codec_iff (value : List Char) :
    ((∀ id, parseRouterId value = some id ↔ Denotes (compact value) id) ↔
      ¬ (unsigned (compact value) ≠ compact value ∧ ∃ id, Denotes (unsigned (compact value)) id)) ∧
      ∀ id, parseRouterId (formatRouterId id) = some id ∧ parseRouterId id.display = some id := by
  refine ⟨?_, fun id => ⟨?_, ?_⟩⟩
  · simp only [parseRouterId_eq_some]
    constructor
    · rintro codec ⟨signed, id, denoted⟩
      exact signed ((codec id).mp denoted).unsigned_eq
    · intro unsignedOrRefused id
      by_cases signed : unsigned (compact value) = compact value
      · rw [signed]
      · refine ⟨fun denoted => absurd ⟨signed, id, denoted⟩ unsignedOrRefused, fun denoted => ?_⟩
        exact absurd denoted.unsigned_eq signed
  · exact parseRouterId_eq_of_compact _ (compact_hexOctets _)
  · exact parseRouterId_eq_of_compact _ (compact_display _)

theorem signed_pairs_are_parsed :
    ∃ id, parseRouterId "+1+1+1+1+1+1+1+1".toList = some id ∧
      ¬ Denotes (compact "+1+1+1+1+1+1+1+1".toList) id := by
  refine ⟨⟨0x0101010101010101, by decide, by decide⟩, by decide, ?_⟩
  intro denoted
  exact absurd denoted.unsigned_eq (by decide)

end BabelRs
