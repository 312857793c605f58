import Mathlib.Data.Nat.Digits.Lemmas
import Mathlib.Tactic.IntervalCases
import Mathlib.Data.Rat.Init
import Mathlib.Algebra.Order.Field.Rat

/-!
# Json — texts and their values

A text is a list of bytes in UTF-8. `decode` reads all of JSON; strings stay bytes.

* `string_append_quote`: a string without special characters is read as it stands, and no other one
  is if there is no string behind it (`plain_of_string`).
* `reads_intBytes`, `reads_stringBytes`, `reads_arrayBytes`: texts that are read as what is written.
-/

namespace Json

inductive Value where
  | null
  | bool (b : Bool)
  | number (x : ℚ)
  | string (s : List UInt8)
  | array (l : List Value)
  | object (fields : List (List UInt8 × Value))

def quote : UInt8 := 0x22

def backslash : UInt8 := 0x5C

variable (b : UInt8)

def isSpace : Bool := b = 0x20 || b = 0x09 || b = 0x0A || b = 0x0D

variable (l : List UInt8)

def skip : List UInt8 := l.dropWhile isSpace

/-! ## Numbers -/

def isDigit : Bool := 0x30 ≤ b && b ≤ 0x39

def ofDigits : ℕ := l.foldl (fun n b => 10 * n + (b.toNat - 0x30)) 0

def natural : Option (ℕ × List UInt8) :=
  let digits := l.takeWhile isDigit
  if digits = [] ∨ digits.head? = some 0x30 ∧ digits ≠ [0x30] then none
  else some (ofDigits digits, l.dropWhile isDigit)

def digits : Option (List UInt8 × List UInt8) :=
  if l.takeWhile isDigit = [] then none else some (l.takeWhile isDigit, l.dropWhile isDigit)

def fraction : List UInt8 → Option (ℚ × List UInt8)
  | [] => some (0, [])
  | b :: l =>
    if b = 0x2E then (digits l).map fun (ds, r) => (ofDigits ds / 10 ^ ds.length, r)
    else some (0, b :: l)

def exponent : List UInt8 → Option (ℤ × List UInt8)
  | [] => some (0, [])
  | b :: l =>
    if b = 0x65 ∨ b = 0x45 then
      if l.head? = some 0x2D then (digits l.tail).map fun (ds, r) => (-(ofDigits ds : ℤ), r)
      else if l.head? = some 0x2B then (digits l.tail).map fun (ds, r) => ((ofDigits ds : ℤ), r)
      else (digits l).map fun (ds, r) => ((ofDigits ds : ℤ), r)
    else some (0, b :: l)

def unsigned : Option (ℚ × List UInt8) :=
  (natural l).bind fun (n, l) =>
  (fraction l).bind fun (x, l) =>
  (exponent l).map fun (e, l) => ((n + x) * 10 ^ e, l)

def number : Option (ℚ × List UInt8) :=
  if l.head? = some 0x2D then (unsigned l.tail).map fun (x, r) => (-x, r) else unsigned l

/-! ## Strings -/

def hexDigit : Option ℕ :=
  if isDigit b then some (b.toNat - 0x30)
  else if 0x41 ≤ b ∧ b ≤ 0x46 then some (b.toNat - 0x41 + 10)
  else if 0x61 ≤ b ∧ b ≤ 0x66 then some (b.toNat - 0x61 + 10)
  else none

def hex4 : List UInt8 → Option (ℕ × List UInt8)
  | a :: b :: c :: d :: l =>
    (hexDigit a).bind fun a => (hexDigit b).bind fun b => (hexDigit c).bind fun c =>
      (hexDigit d).map fun d => (((a * 16 + b) * 16 + c) * 16 + d, l)
  | _ => none

def utf8 (n : ℕ) : List UInt8 :=
  if n < 0x80 then [.ofNat n]
  else if n < 0x800 then [.ofNat (0xC0 + n / 0x40), .ofNat (0x80 + n % 0x40)]
  else if n < 0x10000 then
    [.ofNat (0xE0 + n / 0x1000), .ofNat (0x80 + n / 0x40 % 0x40), .ofNat (0x80 + n % 0x40)]
  else
    [.ofNat (0xF0 + n / 0x40000), .ofNat (0x80 + n / 0x1000 % 0x40),
      .ofNat (0x80 + n / 0x40 % 0x40), .ofNat (0x80 + n % 0x40)]

/-- The rest of `\u`; surrogates come in pairs. -/
def unicode : Option (List UInt8 × List UInt8) :=
  (hex4 l).bind fun (n, l) =>
    if 0xD800 ≤ n ∧ n < 0xDC00 then
      match l with
      | b :: c :: l =>
        if b = backslash ∧ c = 0x75 then
          (hex4 l).bind fun (m, l) =>
            if 0xDC00 ≤ m ∧ m < 0xE000 then
              some (utf8 (0x10000 + (n - 0xD800) * 0x400 + (m - 0xDC00)), l)
            else none
        else none
      | _ => none
    else if 0xDC00 ≤ n ∧ n < 0xE000 then none
    else some (utf8 n, l)

def simpleEscape : Option UInt8 :=
  if b = quote ∨ b = backslash ∨ b = 0x2F then some b
  else if b = 0x62 then some 0x08
  else if b = 0x66 then some 0x0C
  else if b = 0x6E then some 0x0A
  else if b = 0x72 then some 0x0D
  else if b = 0x74 then some 0x09
  else none

def escape : List UInt8 → Option (List UInt8 × List UInt8)
  | [] => none
  | b :: l => if b = 0x75 then unicode l else (simpleEscape b).map fun c => ([c], l)

def stringBody : ℕ → List UInt8 → Option (List UInt8 × List UInt8)
  | 0, _ => none
  | _ + 1, [] => none
  | turns + 1, b :: l =>
    if b = quote then some ([], l)
    else if b = backslash then
      (escape l).bind fun (s, l) => (stringBody turns l).map fun (t, r) => (s ++ t, r)
    else if b < 0x20 then none
    else (stringBody turns l).map fun (t, r) => (b :: t, r)

def string : Option (List UInt8 × List UInt8) := stringBody l.length l

/-! ## Values -/

def literal (name : List UInt8) (v : Value) (l : List UInt8) : Option (Value × List UInt8) :=
  if name.isPrefixOf l then some (v, l.drop name.length) else none

mutual

/-- A value at the front; `depth` is an upper bound on how deep it is, counting the values before it
in an array as well. -/
def value : ℕ → List UInt8 → Option (Value × List UInt8)
  | 0, _ => none
  | _ + 1, [] => none
  | depth + 1, b :: l =>
    if b = quote then (string l).map fun (s, r) => (.string s, r)
    else if b = 0x5B then
      if (skip l).head? = some 0x5D then some (.array [], (skip l).tail)
      else (elements depth l).map fun (vs, r) => (.array vs, r)
    else if b = 0x7B then
      if (skip l).head? = some 0x7D then some (.object [], (skip l).tail)
      else (members depth l).map fun (fs, r) => (.object fs, r)
    else if b = 0x6E then literal [0x75, 0x6C, 0x6C] .null l
    else if b = 0x74 then literal [0x72, 0x75, 0x65] (.bool true) l
    else if b = 0x66 then literal [0x61, 0x6C, 0x73, 0x65] (.bool false) l
    else (number (b :: l)).map fun (x, r) => (.number x, r)

def elements : ℕ → List UInt8 → Option (List Value × List UInt8)
  | 0, _ => none
  | depth + 1, l =>
    (value depth (skip l)).bind fun (v, r) =>
      if (skip r).head? = some 0x2C then
        (elements depth (skip r).tail).map fun (vs, r) => (v :: vs, r)
      else if (skip r).head? = some 0x5D then some ([v], (skip r).tail)
      else none

def members : ℕ → List UInt8 → Option (List (List UInt8 × Value) × List UInt8)
  | 0, _ => none
  | depth + 1, l =>
    if (skip l).head? = some quote then
      (string (skip l).tail).bind fun (name, l) =>
        if (skip l).head? = some 0x3A then
          (value depth (skip (skip l).tail)).bind fun (v, r) =>
            if (skip r).head? = some 0x2C then
              (members depth (skip r).tail).map fun (fs, r) => ((name, v) :: fs, r)
            else if (skip r).head? = some 0x7D then some ([(name, v)], (skip r).tail)
            else none
        else none
    else none

end

variable (l : List UInt8)

def decode : Option Value :=
  (value (l.length + 1) (skip l)).bind fun (v, r) => if skip r = [] then some v else none

/-! ## Strings that are read as they stand -/

def IsPlain (b : UInt8) : Prop := b ≠ quote ∧ b ≠ backslash ∧ 0x20 ≤ b
deriving Decidable

def Plain (s : List UInt8) : Prop := ∀ b ∈ s, IsPlain b
deriving Decidable

/-- Induction on the string. -/
theorem stringBody_append_quote {s : List UInt8} (h : Plain s) (rest : List UInt8) {turns : ℕ}
    (hturns : s.length < turns) : stringBody turns (s ++ quote :: rest) = some (s, rest) := by
  induction s generalizing turns with
  | nil =>
    cases turns with
    | zero => exact absurd hturns (Nat.not_lt_zero _)
    | succ turns => exact if_pos rfl
  | cons b s ih =>
    cases turns with
    | zero => exact absurd hturns (Nat.not_lt_zero _)
    | succ turns =>
      obtain ⟨hquote, hbackslash, hcontrol⟩ := h b List.mem_cons_self
      have hrest := ih (fun c hc => h c (List.mem_cons_of_mem b hc)) (Nat.lt_of_succ_lt_succ hturns)
      rw [List.cons_append, stringBody, if_neg hquote, if_neg hbackslash,
        if_neg (UInt8.not_lt.mpr hcontrol), hrest]
      rfl

theorem string_append_quote {s : List UInt8} (h : Plain s) (rest : List UInt8) :
    string (s ++ quote :: rest) = some (s, rest) := by
  apply stringBody_append_quote h
  rw [List.length_append, List.length_cons]
  omega

theorem le_of_hexDigit {b : UInt8} {n : ℕ} (h : hexDigit b = some n) : 0x20 ≤ b := by
  have hle : 0x30 ≤ b := by
    unfold hexDigit at h
    split at h
    · next hdigit =>
      rw [isDigit, Bool.and_eq_true, decide_eq_true_eq, decide_eq_true_eq] at hdigit
      exact hdigit.1
    · split at h
      · next hupper => exact UInt8.le_trans (by decide) hupper.1
      · split at h
        · next hlower => exact UInt8.le_trans (by decide) hlower.1
        · cases h
  exact UInt8.le_trans (by decide) hle

theorem hex4_eq_some {l r : List UInt8} {n : ℕ} (h : hex4 l = some (n, r)) :
    ∃ c, l = c ++ r ∧ c.length = 4 ∧ ∀ b ∈ c, 0x20 ≤ b := by
  match l with
  | [] | [_] | [_, _] | [_, _, _] => cases h
  | a :: b :: c :: d :: l =>
    obtain ⟨na, ha, h⟩ := Option.bind_eq_some_iff.mp h
    obtain ⟨nb, hb, h⟩ := Option.bind_eq_some_iff.mp h
    obtain ⟨nc, hc, h⟩ := Option.bind_eq_some_iff.mp h
    obtain ⟨nd, hd, h⟩ := Option.map_eq_some_iff.mp h
    cases h
    refine ⟨[a, b, c, d], rfl, rfl, ?_⟩
    intro e he
    simp only [List.mem_cons, List.not_mem_nil, or_false] at he
    rcases he with rfl | rfl | rfl | rfl
    · exact le_of_hexDigit ha
    · exact le_of_hexDigit hb
    · exact le_of_hexDigit hc
    · exact le_of_hexDigit hd

variable (n : ℕ)

theorem length_utf8_le : (utf8 n).length ≤ 4 := by
  unfold utf8
  split_ifs <;> simp

theorem unicode_eq_some {l r s : List UInt8} (h : unicode l = some (s, r)) :
    ∃ c, l = c ++ r ∧ s.length ≤ c.length ∧ ∀ b ∈ c, 0x20 ≤ b := by
  rw [unicode, Option.bind_eq_some_iff] at h
  obtain ⟨⟨n, l'⟩, hn, h⟩ := h
  obtain ⟨c, rfl, hlength, hc⟩ := hex4_eq_some hn
  dsimp only at h
  split at h
  · split at h
    · next b d l'' =>
      split at h
      · next hb =>
        rw [Option.bind_eq_some_iff] at h
        obtain ⟨⟨m, l₃⟩, hm, hlow⟩ := h
        obtain ⟨c', rfl, hlength', hc'⟩ := hex4_eq_some hm
        obtain ⟨-, heq⟩ := Option.ite_none_right_eq_some.mp hlow
        obtain ⟨hs, hr⟩ := Prod.mk.inj (Option.some.inj heq)
        have hle : s.length ≤ 4 := hs ▸ length_utf8_le _
        obtain ⟨rfl, rfl⟩ := hb
        refine ⟨c ++ backslash :: 0x75 :: c', by simp [← hr], ?_, ?_⟩
        · rw [List.length_append, hlength]
          omega
        · intro e he
          rcases List.mem_append.mp he with he | he
          · exact hc e he
          · rcases List.mem_cons.mp he with rfl | he
            · decide
            · rcases List.mem_cons.mp he with rfl | he
              · decide
              · exact hc' e he
      · cases h
    · cases h
  · split at h
    · cases h
    · cases h
      exact ⟨c, rfl, hlength ▸ length_utf8_le n, hc⟩

theorem le_of_simpleEscape {b c : UInt8} (h : simpleEscape b = some c) : 0x20 ≤ b := by
  unfold simpleEscape at h
  split at h
  · next hb =>
    rcases hb with rfl | rfl | rfl
    · decide
    · decide
    · decide
  · split_ifs at h with h1 h2 h3 h4 h5
    · rw [h1]
      decide
    · rw [h2]
      decide
    · rw [h3]
      decide
    · rw [h4]
      decide
    · rw [h5]
      decide

theorem escape_eq_some {l r s : List UInt8} (h : escape l = some (s, r)) :
    ∃ c, l = c ++ r ∧ s.length ≤ c.length ∧ ∀ b ∈ c, 0x20 ≤ b := by
  cases l with
  | nil => cases h
  | cons b l =>
    rw [escape] at h
    by_cases hb : b = 0x75
    · rw [if_pos hb] at h
      obtain ⟨c, rfl, hlength, hc⟩ := unicode_eq_some h
      refine ⟨b :: c, rfl, Nat.le_succ_of_le hlength, ?_⟩
      intro e he
      rcases List.mem_cons.mp he with rfl | he
      · rw [hb]
        decide
      · exact hc e he
    · rw [if_neg hb] at h
      obtain ⟨c, hc, h⟩ := Option.map_eq_some_iff.mp h
      cases h
      refine ⟨[b], rfl, le_rfl, ?_⟩
      intro e he
      rw [List.mem_singleton.mp he]
      exact le_of_simpleEscape hc

/-- A string is read up to a quote, and with an escape it is shorter than what is read. Induction on
the turns. -/
theorem stringBody_eq_some {turns : ℕ} {l r s : List UInt8} (h : stringBody turns l = some (s, r)) :
    ∃ c, l = c ++ quote :: r ∧ (∀ b ∈ c, 0x20 ≤ b) ∧ (c = s ∧ Plain s ∨ s.length < c.length) := by
  induction turns generalizing l s with
  | zero => cases h
  | succ turns ih =>
    cases l with
    | nil => cases h
    | cons b l =>
      unfold stringBody at h
      split at h
      · next hb =>
        cases h
        exact ⟨[], by rw [hb]; rfl, nofun, .inl ⟨rfl, nofun⟩⟩
      · next hquote =>
        split at h
        · next hb =>
          obtain ⟨⟨e, l'⟩, he, h⟩ := Option.bind_eq_some_iff.mp h
          obtain ⟨⟨t, r'⟩, ht, h⟩ := Option.map_eq_some_iff.mp h
          cases h
          obtain ⟨c, rfl, hlength, hc⟩ := escape_eq_some he
          obtain ⟨c', rfl, hc', hrest⟩ := ih ht
          have hle : t.length ≤ c'.length := by
            rcases hrest with ⟨rfl, -⟩ | hlt
            · exact le_rfl
            · omega
          refine ⟨b :: (c ++ c'), by simp, ?_, .inr ?_⟩
          · intro d hd
            rcases List.mem_cons.mp hd with rfl | hd
            · rw [hb]
              decide
            · rcases List.mem_append.mp hd with hd | hd
              · exact hc d hd
              · exact hc' d hd
          · rw [List.length_append, List.length_cons, List.length_append]
            omega
        · next hbackslash =>
          split at h
          · cases h
          · next hcontrol =>
            have hle : 0x20 ≤ b := UInt8.not_lt.mp hcontrol
            obtain ⟨⟨t, r'⟩, ht, h⟩ := Option.map_eq_some_iff.mp h
            cases h
            obtain ⟨c, rfl, hc, hrest⟩ := ih ht
            refine ⟨b :: c, rfl, ?_, ?_⟩
            · intro d hd
              rcases List.mem_cons.mp hd with rfl | hd
              · exact hle
              · exact hc d hd
            · rcases hrest with ⟨rfl, hplain⟩ | hlt
              · refine .inl ⟨rfl, ?_⟩
                intro d hd
                rcases List.mem_cons.mp hd with rfl | hd
                · exact ⟨hquote, hbackslash, hle⟩
                · exact hplain d hd
              · exact .inr (Nat.succ_lt_succ hlt)

def Closed (rest : List UInt8) : Prop :=
  ∀ c r, rest = c ++ quote :: r → ∃ b ∈ c, b < 0x20

theorem plain_of_string {s rest r : List UInt8} (hclosed : Closed rest)
    (h : string (s ++ quote :: rest) = some (s, r)) : Plain s := by
  obtain ⟨c, heq, hc, ⟨-, hplain⟩ | hlt⟩ := stringBody_eq_some h
  · exact hplain
  · -- the quote of the string is behind a backslash, and the text that is read goes on
    obtain ⟨c', rfl, hrest⟩ | ⟨c', rfl, -⟩ := List.append_eq_append_iff.mp heq
    · cases c' with
      | nil =>
        rw [List.append_nil] at hlt
        exact absurd hlt (Nat.lt_irrefl _)
      | cons d c' =>
        obtain ⟨-, hrest⟩ := List.cons.inj hrest
        obtain ⟨b, hb, hcontrol⟩ := hclosed c' r hrest
        have hle := hc b (List.mem_append_right s (List.mem_cons_of_mem d hb))
        exact absurd hcontrol (UInt8.not_lt.mpr hle)
    · rw [List.length_append] at hlt
      omega

/-! ## Texts that are written -/

def natBytes : List UInt8 :=
  if n = 0 then [0x30] else (Nat.digits 10 n).reverse.map fun d => .ofNat (0x30 + d)

def intBytes (n : ℤ) : List UInt8 := if n < 0 then 0x2D :: natBytes n.natAbs else natBytes n.natAbs

def stringBytes (s : List UInt8) : List UInt8 := quote :: s ++ [quote]

def arrayBytes (sep front back : List UInt8) (ts : List (List UInt8)) : List UInt8 :=
  0x5B :: front ++ (0x2C :: sep).intercalate ts ++ back ++ [0x5D]

def Ends (rest : List UInt8) : Prop := ∀ b ∈ rest.head?, b = 0x2C ∨ b = 0x5D ∨ isSpace b = true

structure Reads (t : List UInt8) (v : Value) : Prop where
  skip : ∀ rest, skip (t ++ rest) = t ++ rest
  value : ∀ depth rest, t.length ≤ depth → Ends rest → value depth (t ++ rest) = some (v, rest)

def Blank : Prop := ∀ b ∈ l, isSpace b = true

theorem Blank.skip_append {l : List UInt8} (h : Blank l) (rest : List UInt8) :
    skip (l ++ rest) = skip rest := List.dropWhile_append_of_pos h

theorem skip_cons {b : UInt8} (h : isSpace b = false) (l : List UInt8) : skip (b :: l) = b :: l :=
  List.dropWhile_cons_of_neg (by rw [h]; decide)

theorem isDigit_of_isSpace {b : UInt8} (h : isSpace b = true) : isDigit b = false := by
  simp only [isSpace, Bool.or_eq_true, decide_eq_true_eq] at h
  rcases h with ((rfl | rfl) | rfl) | rfl <;> decide

theorem Blank.ends {back : List UInt8} (h : Blank back) (rest : List UInt8) :
    Ends (back ++ 0x5D :: rest) := by
  intro b hb
  cases back with
  | nil => exact .inr (.inl (Option.some.inj hb).symm)
  | cons c back =>
    rw [← Option.some.inj hb]
    exact .inr (.inr (h c List.mem_cons_self))

theorem ends_comma : Ends (0x2C :: l) :=
  fun _ hb => .inl (Option.some.inj hb).symm

theorem Ends.not_isDigit {b : UInt8} {l : List UInt8} (h : Ends (b :: l)) : isDigit b = false := by
  rcases h b rfl with rfl | rfl | hspace
  · decide
  · decide
  · exact isDigit_of_isSpace hspace

/-! ### Numbers -/

theorem isDigit_natBytes {n : ℕ} {b : UInt8} (hb : b ∈ natBytes n) : isDigit b = true := by
  unfold natBytes at hb
  split at hb
  · rw [List.mem_singleton.mp hb]
    decide
  · obtain ⟨d, hd, rfl⟩ := List.mem_map.mp hb
    have hlt := Nat.digits_lt_base (by decide) (List.mem_reverse.mp hd)
    interval_cases d <;> decide

theorem natBytes_ne_nil : natBytes n ≠ [] := by
  unfold natBytes
  split
  · exact List.cons_ne_nil _ _
  · next hn =>
    intro h
    rw [List.map_eq_nil_iff, List.reverse_eq_nil_iff] at h
    exact Nat.digits_ne_nil_iff_ne_zero.mpr hn h

theorem ofDigits_natBytes : ofDigits (natBytes n) = n := by
  unfold natBytes
  split
  · next hn =>
    rw [hn]
    decide
  · rw [ofDigits, List.foldl_map, List.foldl_reverse]
    calc (Nat.digits 10 n).foldr (fun d n => 10 * n + ((UInt8.ofNat (0x30 + d)).toNat - 0x30)) 0
        = (Nat.digits 10 n).foldr (fun d n => d + 10 * n) 0 := by
          apply List.foldr_ext
          intro d hd k
          have hlt := Nat.digits_lt_base (by decide) hd
          rw [UInt8.toNat_ofNat']
          omega
      _ = Nat.ofDigits 10 (Nat.digits 10 n) := (Nat.ofDigits_eq_foldr 10 _).symm
      _ = n := Nat.ofDigits_digits 10 n

theorem head?_natBytes {n : ℕ} (h : (natBytes n).head? = some 0x30) : natBytes n = [0x30] := by
  unfold natBytes at h ⊢
  split
  · rfl
  · next hn =>
    rw [if_neg hn, List.head?_map, List.head?_reverse, Option.map_eq_some_iff] at h
    obtain ⟨d, hd, hzero⟩ := h
    have hne := Nat.digits_ne_nil_iff_ne_zero (b := 10) |>.mpr hn
    rw [List.getLast?_eq_some_getLast hne, Option.some_inj] at hd
    have hlast := hd ▸ Nat.getLast_digit_ne_zero 10 hn
    have hlt := Nat.digits_lt_base (by decide) (hd ▸ List.getLast_mem hne)
    interval_cases d <;> simp_all

theorem Ends.takeWhile_isDigit {rest : List UInt8} (h : Ends rest) : rest.takeWhile isDigit = [] := by
  cases rest with
  | nil => exact List.takeWhile_nil
  | cons b l => exact List.takeWhile_cons_of_neg (by rw [h.not_isDigit]; decide)

theorem Ends.dropWhile_isDigit {rest : List UInt8} (h : Ends rest) : rest.dropWhile isDigit = rest := by
  cases rest with
  | nil => exact List.dropWhile_nil
  | cons b l => exact List.dropWhile_cons_of_neg (by rw [h.not_isDigit]; decide)

theorem natural_natBytes {rest : List UInt8} (h : Ends rest) :
    natural (natBytes n ++ rest) = some (n, rest) := by
  have hall : ∀ b ∈ natBytes n, isDigit b = true := fun b hb => isDigit_natBytes hb
  unfold natural
  rw [List.takeWhile_append_of_pos hall, List.dropWhile_append_of_pos hall, h.takeWhile_isDigit,
    h.dropWhile_isDigit, List.append_nil, if_neg, ofDigits_natBytes]
  rintro (hnil | ⟨hhead, hne⟩)
  · exact natBytes_ne_nil n hnil
  · exact hne (head?_natBytes hhead)

theorem Ends.not_number {b : UInt8} {l : List UInt8} (h : Ends (b :: l)) :
    b ≠ 0x2E ∧ ¬(b = 0x65 ∨ b = 0x45) := by
  rcases h b rfl with rfl | rfl | hspace
  · decide
  · decide
  · simp only [isSpace, Bool.or_eq_true, decide_eq_true_eq] at hspace
    rcases hspace with ((rfl | rfl) | rfl) | rfl <;> decide

theorem unsigned_natBytes {rest : List UInt8} (h : Ends rest) :
    unsigned (natBytes n ++ rest) = some ((n : ℚ), rest) := by
  have hfraction : fraction rest = some (0, rest) := by
    cases rest with
    | nil => rfl
    | cons b l => exact if_neg h.not_number.1
  have hexponent : exponent rest = some (0, rest) := by
    cases rest with
    | nil => rfl
    | cons b l => exact if_neg h.not_number.2
  rw [unsigned, natural_natBytes n h]
  simp only [Option.bind_some, hfraction, hexponent, Option.map_some, zpow_zero, mul_one, add_zero]

theorem number_intBytes (n : ℤ) {rest : List UInt8} (h : Ends rest) :
    number (intBytes n ++ rest) = some ((n : ℚ), rest) := by
  unfold intBytes number
  split
  · next hneg =>
    have habs : (n.natAbs : ℤ) = -n := by omega
    rw [List.cons_append, List.head?_cons, if_pos rfl, List.tail_cons, unsigned_natBytes _ h,
      Option.map_some, ← Int.cast_natCast, habs, Int.cast_neg]
    dsimp only
    rw [neg_neg]
  · next hneg =>
    have habs : (n.natAbs : ℤ) = n := by omega
    rw [if_neg, unsigned_natBytes _ h, ← Int.cast_natCast, habs]
    intro hhead
    rw [List.head?_append_of_ne_nil _ (natBytes_ne_nil _)] at hhead
    have hdigit := isDigit_natBytes (List.mem_of_head? hhead)
    exact absurd hdigit (by decide)

theorem head_intBytes (n : ℤ) :
    ∃ b l, intBytes n = b :: l ∧ isSpace b = false ∧ b ≠ quote ∧ b ≠ 0x5B ∧ b ≠ 0x7B ∧ b ≠ 0x6E ∧
      b ≠ 0x74 ∧ b ≠ 0x66 := by
  unfold intBytes
  split
  · exact ⟨0x2D, _, rfl, by decide⟩
  · obtain ⟨b, l, hbytes⟩ := List.exists_cons_of_ne_nil (natBytes_ne_nil n.natAbs)
    have hdigit : isDigit b = true := isDigit_natBytes (hbytes ▸ List.mem_cons_self)
    refine ⟨b, l, hbytes, ?_, ?_, ?_, ?_, ?_, ?_, ?_⟩
    · rw [← Bool.not_eq_true]
      intro hspace
      rw [isDigit_of_isSpace hspace] at hdigit
      exact Bool.false_ne_true hdigit
    all_goals
      rintro rfl
      exact absurd hdigit (by decide)

theorem reads_intBytes (n : ℤ) : Reads (intBytes n) (.number n) := by
  obtain ⟨b, l, hbytes, hspace, hquote, hbracket, hbrace, hn, ht, hf⟩ := head_intBytes n
  constructor
  · intro rest
    rw [hbytes]
    exact skip_cons hspace _
  · intro depth rest hdepth hends
    have hnumber := number_intBytes n hends
    rw [hbytes] at hdepth hnumber ⊢
    cases depth with
    | zero => exact absurd hdepth (Nat.not_succ_le_zero _)
    | succ depth =>
      rw [List.cons_append] at hnumber ⊢
      rw [Json.value, if_neg hquote, if_neg hbracket, if_neg hbrace, if_neg hn, if_neg ht, if_neg hf,
        hnumber]
      rfl

/-! ### Strings -/

variable (depth : ℕ)

theorem value_quote (l : List UInt8) :
    Json.value (depth + 1) (quote :: l) = (string l).map fun (s, r) => (.string s, r) := by
  rw [Json.value, if_pos rfl]

theorem reads_stringBytes {s : List UInt8} (h : Plain s) : Reads (stringBytes s) (.string s) := by
  constructor
  · intro rest
    exact skip_cons (by decide) _
  · intro depth rest hdepth hends
    cases depth with
    | zero => exact absurd hdepth (Nat.not_succ_le_zero _)
    | succ depth =>
      rw [stringBytes, List.cons_append, List.cons_append, value_quote, List.append_assoc,
        List.singleton_append, string_append_quote h]
      rfl

/-! ### Arrays -/

theorem elements_comma {front t : List UInt8} {v : Value} (hfront : Blank front) (h : Reads t v)
    (l : List UInt8) {depth : ℕ} (hdepth : t.length ≤ depth) :
    elements (depth + 1) (front ++ (t ++ 0x2C :: l)) =
      (elements depth l).map fun (vs, r) => (v :: vs, r) := by
  rw [elements, hfront.skip_append, h.skip, h.value depth _ hdepth (ends_comma l), Option.bind_some]
  dsimp only
  rw [skip_cons (by decide), List.head?_cons, if_pos rfl, List.tail_cons]

theorem elements_end {front t back : List UInt8} {v : Value} (hfront : Blank front) (h : Reads t v)
    (hback : Blank back) (rest : List UInt8) {depth : ℕ} (hdepth : t.length ≤ depth) :
    elements (depth + 1) (front ++ (t ++ (back ++ 0x5D :: rest))) = some ([v], rest) := by
  rw [elements, hfront.skip_append, h.skip, h.value depth _ hdepth (hback.ends rest),
    Option.bind_some]
  dsimp only
  rw [hback.skip_append, skip_cons (by decide), List.head?_cons, if_neg (by decide), if_pos rfl,
    List.tail_cons]

/-- Induction on the elements, and their commas. -/
theorem elements_intercalate {sep front back : List UInt8} (hsep : Blank sep) (hback : Blank back)
    {ts : List (List UInt8)} {vs : List Value} (h : List.Forall₂ Reads ts vs) (hne : ts ≠ [])
    (hfront : Blank front) (rest : List UInt8) {depth : ℕ}
    (hdepth : ((0x2C :: sep).intercalate ts).length < depth) :
    elements depth (front ++ ((0x2C :: sep).intercalate ts ++ (back ++ 0x5D :: rest))) =
      some (vs, rest) := by
  induction h generalizing front depth with
  | nil => exact absurd rfl hne
  | @cons t v ts vs ht hts ih =>
    obtain ⟨depth, rfl⟩ := Nat.exists_eq_succ_of_ne_zero (Nat.ne_zero_of_lt hdepth)
    cases hts with
    | nil =>
      rw [List.intercalate_singleton] at hdepth ⊢
      exact elements_end hfront ht hback rest (Nat.le_of_lt_succ hdepth)
    | @cons t' v' ts vs ht' hts =>
      rw [List.intercalate_cons_cons] at hdepth ⊢
      simp only [List.length_append, List.length_cons] at hdepth
      rw [List.append_assoc, List.append_assoc, List.cons_append,
        elements_comma hfront ht _ (by omega), ih (List.cons_ne_nil _ _) hsep (by omega)]
      rfl

theorem value_bracket (l : List UInt8) : Json.value (depth + 1) (0x5B :: l) =
      if (skip l).head? = some 0x5D then some (.array [], (skip l).tail)
      else (elements depth l).map fun (vs, r) => (.array vs, r) := by
  rw [Json.value, if_neg (by decide), if_pos rfl]

theorem value_closing (l : List UInt8) : Json.value depth (0x5D :: l) = none := by
  cases depth with
  | zero => rw [Json.value]
  | succ depth =>
    have hnumber : number (0x5D :: l) = none := rfl
    rw [Json.value, if_neg (by decide), if_neg (by decide), if_neg (by decide), if_neg (by decide),
      if_neg (by decide), if_neg (by decide), hnumber]
    rfl

theorem elements_closing {l : List UInt8} (h : (skip l).head? = some 0x5D) (depth : ℕ) :
    elements depth l = none := by
  obtain ⟨r, hr⟩ := List.head?_eq_some_iff.mp h
  cases depth with
  | zero => rw [elements]
  | succ depth =>
    rw [elements, hr, value_closing]
    rfl

theorem reads_arrayBytes {sep front back : List UInt8} (hsep : Blank sep) (hfront : Blank front)
    (hback : Blank back) {ts : List (List UInt8)} {vs : List Value}
    (h : List.Forall₂ Reads ts vs) : Reads (arrayBytes sep front back ts) (.array vs) := by
  constructor
  · intro rest
    exact skip_cons (by decide) _
  · intro depth rest hdepth hends
    cases depth with
    | zero => exact absurd hdepth (Nat.not_succ_le_zero _)
    | succ depth =>
      have hbytes : arrayBytes sep front back ts ++ rest =
          0x5B :: (front ++ ((0x2C :: sep).intercalate ts ++ (back ++ 0x5D :: rest))) := by
        simp [arrayBytes]
      have hlength : ((0x2C :: sep).intercalate ts).length < depth := by
        simp only [arrayBytes, List.length_append, List.length_cons] at hdepth
        omega
      rw [hbytes, value_bracket]
      by_cases hts : ts = []
      · subst hts
        cases h
        rw [List.intercalate_nil, List.nil_append, hfront.skip_append, hback.skip_append,
          skip_cons (by decide), List.head?_cons, if_pos rfl, List.tail_cons]
      · have helements := elements_intercalate hsep hback h hts hfront rest hlength
        rw [helements, if_neg]
        · rfl
        · intro hhead
          rw [elements_closing hhead] at helements
          cases helements

theorem Reads.decode {t : List UInt8} {v : Value} (h : Reads t v) : decode t = some v := by
  have hskip := h.skip []
  have hvalue := h.value (t.length + 1) [] (Nat.le_succ _) (fun _ hb => nomatch hb)
  rw [List.append_nil] at hskip hvalue
  rw [Json.decode, hskip, hvalue]
  rfl

/-! ## What the elements of an array say about its text -/

theorem elements_of_value {depth : ℕ} {l r : List UInt8} {v : Value} {vs : List Value}
    (h : value (depth + 1) (0x5B :: l) = some (.array (v :: vs), r)) :
    elements depth l = some (v :: vs, r) := by
  rw [value_bracket] at h
  split at h
  · cases h
  · obtain ⟨⟨vs', r'⟩, helements, heq⟩ := Option.map_eq_some_iff.mp h
    cases heq
    exact helements

theorem elements_of_comma {front t l r : List UInt8} {v v' : Value} {vs : List Value}
    (hfront : Blank front) (ht : Reads t v) {depth : ℕ} (hdepth : t.length ≤ depth)
    (h : elements (depth + 1) (front ++ (t ++ 0x2C :: l)) = some (v' :: vs, r)) :
    elements depth l = some (vs, r) := by
  rw [elements_comma hfront ht l hdepth] at h
  obtain ⟨⟨vs', r'⟩, helements, heq⟩ := Option.map_eq_some_iff.mp h
  cases heq
  exact helements

theorem value_of_elements {depth : ℕ} {l r : List UInt8} {v : Value} {vs : List Value}
    (h : elements (depth + 1) l = some (v :: vs, r)) : ∃ r', value depth (skip l) = some (v, r') := by
  rw [elements] at h
  obtain ⟨⟨v', r'⟩, hvalue, h⟩ := Option.bind_eq_some_iff.mp h
  refine ⟨r', ?_⟩
  dsimp only at h
  split at h
  · obtain ⟨⟨vs', r''⟩, -, heq⟩ := Option.map_eq_some_iff.mp h
    cases heq
    exact hvalue
  · obtain ⟨-, heq⟩ := Option.ite_none_right_eq_some.mp h
    cases heq
    exact hvalue

theorem string_of_value {depth : ℕ} {l r s : List UInt8}
    (h : value (depth + 1) (quote :: l) = some (.string s, r)) : string l = some (s, r) := by
  rw [value_quote] at h
  obtain ⟨⟨s', r'⟩, hstring, heq⟩ := Option.map_eq_some_iff.mp h
  cases heq
  exact hstring

theorem closed_nil : Closed [] := by
  intro c r h
  cases c <;> cases h

theorem Closed.cons {b : UInt8} {l : List UInt8} (hb : b ≠ quote) (h : Closed l) :
    Closed (b :: l) := by
  intro c r heq
  cases c with
  | nil => exact absurd (List.cons.inj heq).1 hb
  | cons b' c =>
    obtain ⟨d, hd, hlt⟩ := h c r (List.cons.inj heq).2
    exact ⟨d, List.mem_cons_of_mem b' hd, hlt⟩

theorem closed_of_lt {b : UInt8} (hb : b < 0x20) (l : List UInt8) : Closed (b :: l) := by
  intro c r heq
  cases c with
  | nil =>
    rw [(List.cons.inj heq).1] at hb
    exact absurd hb (by decide)
  | cons b' c => exact ⟨b', List.mem_cons_self, (List.cons.inj heq).1 ▸ hb⟩

end Json
