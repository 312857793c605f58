import Mathlib.Data.List.Basic

/-!
# Utf16 — texts as lists of UTF-16 units

A text of Unicode characters as a language with 16-bit strings holds it, with the iteration over its
characters that such languages have. `ofChars` is the encoding, `codePoints` the iteration, and
`codePoints_ofChars` says that it finds the characters; `dropWhile_ofChars` transfers a scan over the
units to one over the characters.
-/

namespace Utf16

variable (c : Char)

def encode : List ℕ :=
  if c.toNat < 0x10000 then [c.toNat]
  else [0xD800 + (c.toNat - 0x10000) / 0x400, 0xDC00 + (c.toNat - 0x10000) % 0x400]

variable (cs : List Char)

def ofChars : List ℕ := cs.flatMap encode

def IsHigh (u : ℕ) : Prop := 0xD800 ≤ u ∧ u < 0xDC00
deriving Decidable

def IsLow (u : ℕ) : Prop := 0xDC00 ≤ u ∧ u < 0xE000
deriving Decidable

def codePoints : List ℕ → List (List ℕ)
  | [] => []
  | [u] => [[u]]
  | u :: v :: rest =>
    if IsHigh u ∧ IsLow v then [u, v] :: codePoints rest else [u] :: codePoints (v :: rest)

/-! ## Characters and their units -/

theorem encode_ne_nil : encode c ≠ [] := by
  unfold encode
  split <;> exact List.cons_ne_nil _ _

theorem ofChars_append (a b : List Char) : ofChars (a ++ b) = ofChars a ++ ofChars b :=
  List.flatMap_append

theorem ofChars_cons (cs : List Char) : ofChars (c :: cs) = encode c ++ ofChars cs :=
  List.flatMap_cons

theorem ofChars_eq_nil {cs : List Char} : ofChars cs = [] ↔ cs = [] := by
  constructor
  · intro h
    cases cs with
    | nil => rfl
    | cons c cs =>
      rw [ofChars_cons] at h
      exact absurd (List.append_eq_nil_iff.mp h).1 (encode_ne_nil c)
  · rintro rfl
    rfl

theorem take_ofChars (a b : List Char) : (ofChars (a ++ b)).take (ofChars a).length = ofChars a := by
  rw [ofChars_append, List.take_left]

theorem not_isHigh_toNat : ¬IsHigh c.toNat := by
  intro ⟨hlow, hhigh⟩
  have hvalid : c.toNat < 0xD800 ∨ 0xDFFF < c.toNat ∧ c.toNat < 0x110000 := c.valid
  omega

theorem surrogates {c : Char} (h : ¬c.toNat < 0x10000) :
    IsHigh (0xD800 + (c.toNat - 0x10000) / 0x400) ∧ IsLow (0xDC00 + (c.toNat - 0x10000) % 0x400) := by
  have hvalid : c.toNat < 0xD800 ∨ 0xDFFF < c.toNat ∧ c.toNat < 0x110000 := c.valid
  unfold IsHigh IsLow
  omega

theorem codePoints_encode_append (rest : List ℕ) :
    codePoints (encode c ++ rest) = encode c :: codePoints rest := by
  unfold encode
  split
  · cases rest with
    | nil => rfl
    | cons v rest =>
      rw [List.singleton_append, codePoints, if_neg fun h => not_isHigh_toNat c h.1]
  · next h =>
    rw [List.cons_append, List.singleton_append, codePoints, if_pos (surrogates h)]

/-- Induction on the characters. -/
theorem codePoints_ofChars : codePoints (ofChars cs) = cs.map encode := by
  induction cs with
  | nil => rfl
  | cons c cs ih => rw [ofChars_cons, codePoints_encode_append, ih, List.map_cons]

theorem flatten_take_codePoints (n : ℕ) :
    ((codePoints (ofChars cs)).take n).flatten = ofChars (cs.take n) := by
  rw [codePoints_ofChars, ← List.map_take, ofChars, List.flatMap_def]

/-! ## Scans -/

variable {p : ℕ → Bool} {q : Char → Bool}

/-- `q` says of a character what `p` says of each of its units. -/
def Agree (p : ℕ → Bool) (q : Char → Bool) : Prop := ∀ c, ∀ u ∈ encode c, p u = q c

theorem Agree.not (h : Agree p q) : Agree (!p ·) (!q ·) := fun c u hu => congrArg (!·) (h c u hu)

theorem Agree.dropWhile_encode (h : Agree p q) (c : Char) (rest : List ℕ) :
    (encode c ++ rest).dropWhile p = if q c then rest.dropWhile p else encode c ++ rest := by
  split
  · next hq => exact List.dropWhile_append_of_pos fun u hu => (h c u hu).trans hq
  · next hq =>
    obtain ⟨u, us, hunits⟩ := List.exists_cons_of_ne_nil (encode_ne_nil c)
    have hu : p u = q c := h c u (hunits ▸ List.mem_cons_self)
    rw [hunits, List.cons_append, List.dropWhile_cons_of_neg (by rw [hu]; exact hq)]

/-- A scan over the units stops at a character. Induction on the characters. -/
theorem Agree.dropWhile_ofChars (h : Agree p q) (cs : List Char) :
    (ofChars cs).dropWhile p = ofChars (cs.dropWhile q) := by
  induction cs with
  | nil => rfl
  | cons c cs ih =>
    rw [ofChars_cons, h.dropWhile_encode]
    split
    · next hq => rw [ih, List.dropWhile_cons_of_pos hq]
    · next hq => rw [List.dropWhile_cons_of_neg hq, ofChars_cons]

end Utf16
