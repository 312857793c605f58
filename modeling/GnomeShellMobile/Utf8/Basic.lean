import Mathlib.Data.Fintype.Basic
import Mathlib.Data.List.Basic

/-!
# Utf8 — texts as bytes

The encoding of a text, and the functions of GLib that find their way in it: `skip` is the table
behind `g_utf8_next_char`, and `offsetToPointer`, `findPrevChar` and `strlen` are the functions of
these names. They read the memory from the start of the text on; `none` is a read beyond it.

* **`offsetToPointer_encode`**: the bytes of the first `n` characters.
* **`findPrevChar_encode`**: the last start of a character before a byte of the text.
* **`strlen_encode`**: the characters in the bytes of a prefix.
* **`fit`**: the longest prefix of a text for which there is room.
-/

namespace Utf8

variable {cs : List Char} {room : ℕ}

def encode (cs : List Char) : List UInt8 := cs.flatMap String.utf8EncodeChar

def size (cs : List Char) : ℕ := (encode cs).length

variable (b : UInt8)

def skip : ℕ :=
  if b < 0xC0 then 1
  else if b < 0xE0 then 2
  else if b < 0xF0 then 3
  else if b < 0xF8 then 4
  else if b < 0xFC then 5
  else if b < 0xFE then 6
  else 1

def IsTail : Prop := b &&& 0xC0 = 0x80
deriving Decidable

/-- `g_utf8_offset_to_pointer (str, n) - str`. -/
def offsetToPointer (mem : List UInt8) : ℕ → Option ℕ
  | 0 => some 0
  | n + 1 =>
    match mem with
    | [] => none
    | b :: _ => (offsetToPointer (mem.drop (skip b)) n).map (skip b + ·)

/-- `g_utf8_find_prev_char (str, str + p) - str`. -/
def findPrevChar (mem : List UInt8) : ℕ → Option ℕ
  | 0 => none
  | p + 1 => mem[p]?.bind fun b => if IsTail b then findPrevChar mem p else some p

theorem skip_pos : 0 < skip b := by
  unfold skip
  repeat' split
  all_goals decide

/-- `g_utf8_strlen (str, max)`: the text ends at a NUL, and a character that goes beyond `max` is not
counted. -/
def strlen (mem : List UInt8) (max : ℕ) : ℕ :=
  match mem with
  | [] => 0
  | b :: rest =>
    if b = 0 ∨ max < skip b then 0 else strlen ((b :: rest).drop (skip b)) (max - skip b) + 1
termination_by mem.length
decreasing_by
  have hpos := skip_pos b
  rw [List.length_drop, List.length_cons]
  omega

/-- The longest prefix of a text that has at most `room` bytes. -/
def fit (room : ℕ) : List Char → List Char
  | [] => []
  | c :: cs => if c.utf8Size ≤ room then c :: fit (room - c.utf8Size) cs else []

/-! ## The bytes of a character -/

theorem isTail_ofFin : ∀ x : Fin 256, IsTail (UInt8.ofFin x) ↔ 0x80 ≤ x.val ∧ x.val < 0xC0 := by
  decide +kernel

theorem isTail_iff : IsTail b ↔ 0x80 ≤ b.toNat ∧ b.toNat < 0xC0 := isTail_ofFin b.toFin

theorem isTail_ofNat (v : ℕ) : IsTail (UInt8.ofNat (v % 0x40 + 0x80)) := by
  rw [isTail_iff, UInt8.toNat_ofNat']
  omega

theorem skip_eq : skip b =
    if b.toNat < 0xC0 then 1 else if b.toNat < 0xE0 then 2 else if b.toNat < 0xF0 then 3
    else if b.toNat < 0xF8 then 4 else if b.toNat < 0xFC then 5 else if b.toNat < 0xFE then 6 else 1 :=
  rfl

variable (c : Char)

structure Shape (b : UInt8) (tail : List UInt8) : Prop where
  encode_eq : String.utf8EncodeChar c = b :: tail
  skip_eq : skip b = tail.length + 1
  not_isTail : ¬ IsTail b
  eq_zero_iff : b = 0 ↔ c = '\x00'
  isTail : ∀ t ∈ tail, IsTail t

theorem char_eq_zero_iff : c = '\x00' ↔ c.val.toNat = 0 := by
  constructor
  · rintro rfl
    rfl
  · intro h
    exact Char.ext (UInt32.toNat_inj.mp h)

theorem exists_shape : ∃ b tail, Shape c b tail := by
  by_cases h₁ : c.val.toNat ≤ 0x7F
  · refine ⟨UInt8.ofNat c.val.toNat, [], ?_, ?_, ?_, ?_, ?_⟩
    · rw [String.utf8EncodeChar, if_pos h₁]
    · rw [skip_eq, UInt8.toNat_ofNat', if_pos (by omega)]
      rfl
    · rw [isTail_iff, UInt8.toNat_ofNat']
      omega
    · rw [char_eq_zero_iff, ← UInt8.toNat_inj, UInt8.toNat_ofNat']
      show _ = 0 ↔ _
      omega
    · exact fun t ht => absurd ht List.not_mem_nil
  by_cases h₂ : c.val.toNat ≤ 0x7FF
  · refine ⟨UInt8.ofNat (c.val.toNat / 64 % 0x20 + 0xC0), [UInt8.ofNat (c.val.toNat % 0x40 + 0x80)],
      ?_, ?_, ?_, ?_, ?_⟩
    · rw [String.utf8EncodeChar, if_neg h₁, if_pos h₂]
    · rw [skip_eq, UInt8.toNat_ofNat', if_neg (by omega), if_pos (by omega)]
      rfl
    · rw [isTail_iff, UInt8.toNat_ofNat']
      omega
    · rw [char_eq_zero_iff, ← UInt8.toNat_inj, UInt8.toNat_ofNat']
      show _ = 0 ↔ _
      omega
    · exact List.forall_mem_singleton.mpr (isTail_ofNat _)
  by_cases h₃ : c.val.toNat ≤ 0xFFFF
  · refine ⟨UInt8.ofNat (c.val.toNat / 4096 % 0x10 + 0xE0),
      [UInt8.ofNat (c.val.toNat / 64 % 0x40 + 0x80), UInt8.ofNat (c.val.toNat % 0x40 + 0x80)],
      ?_, ?_, ?_, ?_, ?_⟩
    · rw [String.utf8EncodeChar, if_neg h₁, if_neg h₂, if_pos h₃]
    · rw [skip_eq, UInt8.toNat_ofNat', if_neg (by omega), if_neg (by omega), if_pos (by omega)]
      rfl
    · rw [isTail_iff, UInt8.toNat_ofNat']
      omega
    · rw [char_eq_zero_iff, ← UInt8.toNat_inj, UInt8.toNat_ofNat']
      show _ = 0 ↔ _
      omega
    · exact List.forall_mem_cons.mpr ⟨isTail_ofNat _, List.forall_mem_singleton.mpr (isTail_ofNat _)⟩
  · refine ⟨UInt8.ofNat (c.val.toNat / 262144 % 0x08 + 0xF0),
      [UInt8.ofNat (c.val.toNat / 4096 % 0x40 + 0x80), UInt8.ofNat (c.val.toNat / 64 % 0x40 + 0x80),
        UInt8.ofNat (c.val.toNat % 0x40 + 0x80)], ?_, ?_, ?_, ?_, ?_⟩
    · rw [String.utf8EncodeChar, if_neg h₁, if_neg h₂, if_neg h₃]
    · rw [skip_eq, UInt8.toNat_ofNat', if_neg (by omega), if_neg (by omega), if_neg (by omega),
        if_pos (by omega)]
      rfl
    · rw [isTail_iff, UInt8.toNat_ofNat']
      omega
    · rw [char_eq_zero_iff, ← UInt8.toNat_inj, UInt8.toNat_ofNat']
      show _ = 0 ↔ _
      omega
    · exact List.forall_mem_cons.mpr ⟨isTail_ofNat _, List.forall_mem_cons.mpr
        ⟨isTail_ofNat _, List.forall_mem_singleton.mpr (isTail_ofNat _)⟩⟩

/-! ## Texts -/

@[simp] theorem encode_nil : encode [] = [] := rfl

theorem encode_cons (cs : List Char) : encode (c :: cs) = String.utf8EncodeChar c ++ encode cs :=
  List.flatMap_cons

theorem encode_append (a b : List Char) : encode (a ++ b) = encode a ++ encode b :=
  List.flatMap_append

@[simp] theorem size_nil : size [] = 0 := rfl

theorem size_cons (cs : List Char) : size (c :: cs) = c.utf8Size + size cs := by
  rw [size, encode_cons, List.length_append, String.length_utf8EncodeChar, size]

theorem size_append (a b : List Char) : size (a ++ b) = size a + size b := by
  rw [size, encode_append, List.length_append, size, size]

theorem Shape.utf8Size {c : Char} {b : UInt8} {tail : List UInt8} (h : Shape c b tail) :
    c.utf8Size = skip b := by
  rw [h.skip_eq, ← String.length_utf8EncodeChar, h.encode_eq, List.length_cons]

/-- The bytes of the first `n` characters are passed over. Induction on `n`. -/
theorem offsetToPointer_encode {n : ℕ} (h : n ≤ cs.length) (rest : List UInt8) :
    offsetToPointer (encode cs ++ rest) n = some (size (cs.take n)) := by
  induction n generalizing cs with
  | zero => rw [offsetToPointer, List.take_zero, size_nil]
  | succ n ih =>
    cases cs with
    | nil => exact absurd h (by simp)
    | cons c cs =>
      obtain ⟨b, tail, hshape⟩ := exists_shape c
      have hdrop : (b :: (tail ++ (encode cs ++ rest))).drop (skip b) = encode cs ++ rest := by
        rw [hshape.skip_eq, List.drop_succ_cons, List.drop_left]
      rw [encode_cons, hshape.encode_eq, List.cons_append, List.cons_append, List.append_assoc,
        offsetToPointer, hdrop, ih (Nat.le_of_succ_le_succ h), List.take_succ_cons, size_cons,
        hshape.utf8Size]
      rfl

/-- A byte that begins a character is found from any tail behind it. Induction on the distance. -/
theorem findPrevChar_of_tails {mem : List UInt8} {b : UInt8} {j d : ℕ} (hb : mem[j]? = some b)
    (hfirst : ¬ IsTail b) (htails : ∀ k, j < k → k ≤ j + d → ∃ t, mem[k]? = some t ∧ IsTail t) :
    findPrevChar mem (j + d + 1) = some j := by
  induction d with
  | zero =>
    rw [Nat.add_zero, findPrevChar, hb, Option.bind_some, if_neg hfirst]
  | succ d ih =>
    obtain ⟨t, ht, htail⟩ := htails (j + (d + 1)) (by omega) le_rfl
    rw [findPrevChar, ht, Option.bind_some, if_pos htail]
    exact ih fun k hj hk => htails k hj (by omega)

theorem strlen_encode (h : '\x00' ∉ cs) (rest : List UInt8) :
    strlen (encode cs ++ rest) (size cs) = cs.length := by
  induction cs with
  | nil =>
    rw [size_nil, encode_nil, List.nil_append]
    cases rest with
    | nil => rw [strlen, List.length_nil]
    | cons b rest => rw [strlen, if_pos (.inr (skip_pos b)), List.length_nil]
  | cons c cs ih =>
    obtain ⟨b, tail, hshape⟩ := exists_shape c
    have hc : ¬ b = 0 := fun hb => h (hshape.eq_zero_iff.mp hb ▸ List.mem_cons_self)
    have hdrop : (b :: (tail ++ (encode cs ++ rest))).drop (skip b) = encode cs ++ rest := by
      rw [hshape.skip_eq, List.drop_succ_cons, List.drop_left]
    have hsize : size (c :: cs) = skip b + size cs := by rw [size_cons, hshape.utf8Size]
    have hnot : ¬ (b = 0 ∨ skip b + size cs < skip b) := by
      rintro (hb | hlt)
      · exact hc hb
      · omega
    rw [encode_cons, hshape.encode_eq, List.cons_append, List.cons_append, List.append_assoc, hsize,
      strlen, if_neg hnot, hdrop, Nat.add_sub_cancel_left,
      ih fun hmem => h (List.mem_cons_of_mem _ hmem), List.length_cons]

theorem strlen_prefix {cs pre : List Char} (hpre : pre <+: cs) (h : '\x00' ∉ cs) (rest : List UInt8) :
    strlen (encode cs ++ rest) (size pre) = pre.length := by
  obtain ⟨others, rfl⟩ := hpre
  rw [encode_append, List.append_assoc]
  exact strlen_encode (fun hmem => h (List.mem_append_left _ hmem)) _

/-! ## The longest prefix that fits -/

theorem fit_isPrefix (room : ℕ) (cs : List Char) : fit room cs <+: cs := by
  induction cs generalizing room with
  | nil => exact List.prefix_refl _
  | cons c cs ih =>
    rw [fit]
    split
    · exact List.cons_prefix_cons.mpr ⟨rfl, ih _⟩
    · exact List.nil_prefix

theorem size_fit_le (room : ℕ) (cs : List Char) : size (fit room cs) ≤ room := by
  induction cs generalizing room with
  | nil => exact Nat.zero_le _
  | cons c cs ih =>
    rw [fit]
    split
    · next hroom =>
      have hrest := ih (room - c.utf8Size)
      rw [size_cons]
      omega
    · exact Nat.zero_le _

theorem length_le_fit {cs pre : List Char} (hpre : pre <+: cs) (hsize : size pre ≤ room) :
    pre.length ≤ (fit room cs).length := by
  induction cs generalizing room pre with
  | nil => rw [List.prefix_nil.mp hpre, fit]
  | cons c cs ih =>
    cases pre with
    | nil => exact Nat.zero_le _
    | cons d pre =>
      obtain ⟨rfl, hpre'⟩ := List.cons_prefix_cons.mp hpre
      rw [size_cons] at hsize
      rw [fit, if_pos (by omega), List.length_cons, List.length_cons]
      exact Nat.succ_le_succ (ih hpre' (by omega))

theorem fit_eq_self (h : size cs ≤ room) : fit room cs = cs :=
  (fit_isPrefix room cs).eq_of_length_le (length_le_fit (List.prefix_refl cs) h)

theorem exists_append_fit (h : room < size cs) :
    ∃ c rest, cs = fit room cs ++ c :: rest ∧ room < size (fit room cs) + c.utf8Size := by
  induction cs generalizing room with
  | nil => exact absurd h (Nat.not_lt_zero _)
  | cons c cs ih =>
    rw [fit]
    split
    · next hroom =>
      rw [size_cons] at h
      have hless : room - c.utf8Size < size cs := by omega
      obtain ⟨d, rest, heq, hlt⟩ := ih hless
      refine ⟨d, rest, by rw [List.cons_append, ← heq], ?_⟩
      rw [size_cons]
      omega
    · next hroom => exact ⟨c, cs, rfl, by rw [size_nil]; omega⟩

theorem findPrevChar_encode (h : room < size cs) (rest : List UInt8) :
    findPrevChar (encode cs ++ rest) (room + 1) = some (size (fit room cs)) := by
  obtain ⟨c, others, heq, hlt⟩ := exists_append_fit h
  have hle := size_fit_le room cs
  obtain ⟨b, tail, hshape⟩ := exists_shape c
  have hmem : encode cs ++ rest =
      encode (fit room cs) ++ (b :: (tail ++ (encode others ++ rest))) := by
    conv_lhs => rw [heq, encode_append, encode_cons, hshape.encode_eq]
    simp
  have hsplit : room + 1 = size (fit room cs) + (room - size (fit room cs)) + 1 := by omega
  rw [hsplit, hmem]
  refine findPrevChar_of_tails (b := b) ?_ hshape.not_isTail ?_
  · rw [size, List.getElem?_append_right le_rfl, Nat.sub_self, List.getElem?_cons_zero]
  · intro k hk hkroom
    obtain ⟨i, rfl⟩ : ∃ i, k = size (fit room cs) + (i + 1) := ⟨k - size (fit room cs) - 1, by omega⟩
    rw [hshape.utf8Size, hshape.skip_eq] at hlt
    have hi : i < tail.length := by omega
    refine ⟨tail[i], ?_, hshape.isTail _ (List.getElem_mem hi)⟩
    rw [size, List.getElem?_append_right (Nat.le_add_right _ _), Nat.add_sub_cancel_left,
      List.getElem?_cons_succ, List.getElem?_append_left hi, List.getElem?_eq_getElem hi]

end Utf8
