import Mathlib.Data.List.Basic
import Mathlib.Data.Int.Notation

/-!
# JsParse — scanning backwards for brackets

The backwards scans of `js/misc/jsParse.js`. A string is the list of its code units; those that are
compared with are all characters. `findTheBrace` calls itself on what it has answered, so its bound
is part of what it answers (`Bound`): each call goes on before the offset it began at.

* **`findTheBrace_balanced`**: over well nested brackets the scan comes to the one that is open.
* **`scans`**: the headline.
-/

namespace JsParse

/-! ## The model -/

variable (expr : List Char)

variable (offset : ℤ)

/-- `expr.charAt(offset)`; `none` is the empty string. -/
def charAt : Option Char :=
  if offset < 0 then none else expr[offset.toNat]?

/-- The loop of `findMatchingQuote` and `findMatchingSlash`, from the offset before `n` down. -/
def findBefore (expr : List Char) (quoteChar : Option Char) : ℕ → ℤ
  | 0 => -1
  | n + 1 =>
    if charAt expr n = quoteChar ∧ charAt expr (n - 1) ≠ some '\\' then n
    else findBefore expr quoteChar n

def findMatchingQuote : ℤ :=
  findBefore expr (charAt expr offset) offset.toNat

def findMatchingSlash : ℤ := findBefore expr (some '/') offset.toNat

theorem findBefore_bound (quoteChar : Option Char) (n : ℕ) :
    -1 ≤ findBefore expr quoteChar n ∧ findBefore expr quoteChar n < n := by
  induction n with
  | zero => exact ⟨Int.le_refl _, by rw [findBefore]; omega⟩
  | succ n ih =>
    rw [findBefore]
    split
    · omega
    · omega

/-- What a scan from `offset` may answer. -/
def Bound (offset r : ℤ) : Prop := -1 ≤ r ∧ (r ≤ offset ∨ r = -1)

/-- `expr.charAt(offset) === brace`; a brace may be `undefined`. -/
def isBrace (c brace : Option Char) : Bool := brace.isSome && c == brace

def isQuote (c : Option Char) : Bool := c == some '\'' || c == some '"'

/-- `findTheBrace`, with the bound of its answer. -/
def scan (expr : List Char) (openBrace closeBrace : Option Char) (offset : ℤ) :
    { r : ℤ // Bound offset r } :=
  if hneg : offset < 0 then ⟨-1, Int.le_refl _, .inr rfl⟩
  else
    have hquote := findBefore_bound expr (charAt expr offset) offset.toNat
    have hslash := findBefore_bound expr (some '/') offset.toNat
    if isBrace (charAt expr offset) openBrace then ⟨offset, by omega, .inl (Int.le_refl _)⟩
    else if isQuote (charAt expr offset) then
      let r := scan expr openBrace closeBrace (findMatchingQuote expr offset - 1)
      ⟨r.1, r.2.1, by have := r.2.2; unfold findMatchingQuote at this; omega⟩
    else if charAt expr offset = some '/' then
      let r := scan expr openBrace closeBrace (findMatchingSlash expr offset - 1)
      ⟨r.1, r.2.1, by have := r.2.2; unfold findMatchingSlash at this; omega⟩
    else if isBrace (charAt expr offset) closeBrace then
      match scan expr openBrace closeBrace (offset - 1) with
      | ⟨inner, hinner⟩ =>
        let r := scan expr openBrace closeBrace (inner - 1)
        ⟨r.1, r.2.1, by have := r.2.2; have := hinner.2; omega⟩
    else
      let r := scan expr openBrace closeBrace (offset - 1)
      ⟨r.1, r.2.1, by have := r.2.2; omega⟩
termination_by (offset + 1).toNat
decreasing_by
  · unfold findMatchingQuote
    omega
  · unfold findMatchingSlash
    omega
  · omega
  · have := hinner.2
    omega
  · omega

def findTheBrace (openBrace closeBrace : Option Char) : ℤ :=
  (scan expr openBrace closeBrace offset).1

/-- `findTheBrace` as the source has it. -/
theorem findTheBrace_eq (openBrace closeBrace : Option Char) :
    findTheBrace expr offset openBrace closeBrace =
      if offset < 0 then -1
      else if isBrace (charAt expr offset) openBrace then offset
      else if isQuote (charAt expr offset) then
        findTheBrace expr (findMatchingQuote expr offset - 1) openBrace closeBrace
      else if charAt expr offset = some '/' then
        findTheBrace expr (findMatchingSlash expr offset - 1) openBrace closeBrace
      else if isBrace (charAt expr offset) closeBrace then
        findTheBrace expr (findTheBrace expr (offset - 1) openBrace closeBrace - 1) openBrace closeBrace
      else findTheBrace expr (offset - 1) openBrace closeBrace := by
  unfold findTheBrace
  rw [scan]
  split
  · rfl
  split
  · rfl
  split
  · rfl
  split
  · rfl
  split
  · rfl
  · rfl

def openBraceOf (closeBrace : Option Char) : Option Char :=
  if closeBrace = some ')' then some '(' else if closeBrace = some ']' then some '[' else none

def findMatchingBrace : ℤ :=
  findTheBrace expr (offset - 1) (openBraceOf (charAt expr offset)) (charAt expr offset)

/-- `[\w.)\]]` does not match it. -/
def isStopChar (c : Option Char) : Bool :=
  !c.any fun c => c.isAlphanum || c == '_' || c == '.' || c == ')' || c == ']'

theorem findTheBrace_bound (openBrace closeBrace : Option Char) :
    Bound offset (findTheBrace expr offset openBrace closeBrace) :=
  (scan expr openBrace closeBrace offset).2

/-- `getExpressionOffset`; its loop goes on with what `findMatchingBrace` has answered. -/
def getExpressionOffset (expr : List Char) (offset : ℤ) : ℤ :=
  if hneg : offset < 0 then offset + 1
  else if isStopChar (charAt expr offset) then offset + 1
  else if charAt expr offset = some ')' ∨ charAt expr offset = some ']' then
    have hbound : Bound (offset - 1) (findMatchingBrace expr offset) := findTheBrace_bound _ _ _ _
    getExpressionOffset expr (findMatchingBrace expr offset - 1)
  else getExpressionOffset expr (offset - 1)
termination_by (offset + 1).toNat
decreasing_by
  · have := hbound.2
    omega
  · omega

/-! ## Bounds -/

variable {expr : List Char} {offset : ℤ}

theorem findMatchingBrace_bound (expr : List Char) (h : 0 ≤ offset) :
    -1 ≤ findMatchingBrace expr offset ∧ findMatchingBrace expr offset ≤ offset := by
  have hbound : Bound (offset - 1) (findMatchingBrace expr offset) := findTheBrace_bound _ _ _ _
  have := hbound.2
  exact ⟨hbound.1, by omega⟩

/-- Induction on the turns of the loop, which may leave it at -2. -/
theorem getExpressionOffset_bound (expr : List Char) (h : -2 ≤ offset) :
    -1 ≤ getExpressionOffset expr offset ∧
      getExpressionOffset expr offset ≤ max (offset + 1) 0 := by
  induction offset using getExpressionOffset.induct expr with
  | case1 offset hneg =>
    rw [getExpressionOffset, dif_pos hneg]
    omega
  | case2 offset hneg hstop =>
    rw [getExpressionOffset, dif_neg hneg, if_pos hstop]
    omega
  | case3 offset hneg hstop hclose hbound ih =>
    rw [getExpressionOffset, dif_neg hneg, if_neg hstop, if_pos hclose]
    have hinner := ih (by have := hbound.1; omega)
    have := hbound.2
    omega
  | case4 offset hneg hstop hclose ih =>
    rw [getExpressionOffset, dif_neg hneg, if_neg hstop, if_neg hclose]
    have hinner := ih (by omega)
    omega

/-! ## Well nested brackets -/

inductive Balanced (openBrace closeBrace : Char) : List Char → Prop where
  | nil : Balanced openBrace closeBrace []
  | other {l : List Char} {c : Char} (h : Balanced openBrace closeBrace l) (hopen : c ≠ openBrace)
      (hclose : c ≠ closeBrace) : Balanced openBrace closeBrace (l ++ [c])
  | pair {a b : List Char} (ha : Balanced openBrace closeBrace a)
      (hb : Balanced openBrace closeBrace b) :
      Balanced openBrace closeBrace (a ++ openBrace :: (b ++ [closeBrace]))

def WellNested (openBrace closeBrace : Char) (l : List Char) : Prop :=
  ∀ pre, pre <+: l → pre.count closeBrace ≤ pre.count openBrace

/-- The brackets at `i` and `j` belong together. -/
def Partner (openBrace closeBrace : Char) (expr : List Char) (i j : ℕ) : Prop :=
  ∃ a b rest, expr = a ++ openBrace :: (b ++ closeBrace :: rest) ∧ Balanced openBrace closeBrace b ∧
    i = a.length ∧ j = a.length + 1 + b.length

variable {o c : Char} {l : List Char}

theorem WellNested.initial {pre : List Char} (h : WellNested o c l) (hpre : pre <+: l) :
    WellNested o c pre := fun q hq => h q (hq.trans hpre)

/-- A well nested list is balanced, or its last bracket that is open has only balanced ones after
it. Induction on the length: a closing bracket leads to what comes before its partner. -/
theorem WellNested.cases (hoc : o ≠ c) (n : ℕ) (hn : l.length ≤ n) (h : WellNested o c l) :
    Balanced o c l ∧ l.count o = l.count c ∨
      ∃ a b, l = a ++ o :: b ∧ WellNested o c a ∧ Balanced o c b ∧ b.count o = b.count c := by
  induction n generalizing l with
  | zero =>
    obtain rfl := List.length_eq_zero_iff.mp (Nat.le_zero.mp hn)
    exact .inl ⟨.nil, rfl⟩
  | succ n ih =>
    rcases List.eq_nil_or_concat l with rfl | ⟨l, x, rfl⟩
    · exact .inl ⟨.nil, rfl⟩
    rw [List.concat_eq_append] at h hn ⊢
    rw [List.length_append, List.length_singleton] at hn
    have hl := h.initial (List.prefix_append l [x])
    by_cases hopen : x = o
    · exact .inr ⟨l, [], by rw [hopen], hl, .nil, rfl⟩
    by_cases hclose : x = c
    · subst hclose
      rcases ih (by omega) hl with ⟨-, hcount⟩ | ⟨a, b, rfl, ha, hb, hcount⟩
      · -- it would have no partner
        have hle := h _ List.prefix_rfl
        rw [List.count_append, List.count_append, List.count_singleton_self,
          List.count_singleton, if_neg (by simpa using hopen)] at hle
        omega
      · rw [List.length_append, List.length_cons] at hn
        have hsum : (o :: (b ++ [x])).count o = (o :: (b ++ [x])).count x := by
          simp [hoc, hopen, hcount]
        rcases ih (by omega) ha with ⟨hbal, heq⟩ | ⟨a', b', rfl, ha', hb', heq⟩
        · refine .inl ⟨by simpa using hbal.pair hb, ?_⟩
          rw [List.append_assoc, List.cons_append, List.count_append, List.count_append, heq, hsum]
        · refine .inr ⟨a', b' ++ o :: (b ++ [x]), by simp, ha', hb'.pair hb, ?_⟩
          rw [List.count_append, List.count_append, heq, hsum]
    · have hsame : [x].count o = [x].count c := by
        rw [List.count_singleton, List.count_singleton, if_neg (by simpa using hopen),
          if_neg (by simpa using hclose)]
      rcases ih (by omega) hl with ⟨hbal, hcount⟩ | ⟨a, b, rfl, ha, hb, hcount⟩
      · exact .inl ⟨hbal.other hopen hclose, by rw [List.count_append, List.count_append, hcount, hsame]⟩
      · refine .inr ⟨a, b ++ [x], by simp, ha, hb.other hopen hclose, ?_⟩
        rw [List.count_append, List.count_append, hcount, hsame]

theorem WellNested.exists_partner (hoc : o ≠ c) {j : ℕ} (hj : expr[j]? = some c)
    (h : WellNested o c (expr.take (j + 1))) : ∃ i, Partner o c expr i j := by
  obtain ⟨hlt, hget⟩ := List.getElem?_eq_some_iff.mp hj
  have htake : expr.take (j + 1) = expr.take j ++ [c] := by
    rw [← List.take_append_getElem hlt, hget]
  have hsplit : expr = expr.take j ++ c :: expr.drop (j + 1) := by
    rw [← hget, List.getElem_cons_drop, List.take_append_drop]
  rw [htake] at h
  rcases (h.initial (List.prefix_append _ [c])).cases hoc _ (Nat.le_refl _) with
    ⟨-, hcount⟩ | ⟨a, b, heq, -, hb, -⟩
  · have hle := h _ List.prefix_rfl
    rw [List.count_append, List.count_append, List.count_singleton_self, List.count_singleton,
      if_neg (by simpa using hoc.symm)] at hle
    omega
  · refine ⟨a.length, a, b, expr.drop (j + 1), ?_, hb, rfl, ?_⟩
    · conv_lhs => rw [hsplit, heq]
      simp
    · have hlength := congrArg List.length heq
      rw [List.length_take, List.length_append, List.length_cons] at hlength
      omega

/-! ## The scan over well nested brackets -/

def Plain (c : Char) : Prop := c ≠ '\'' ∧ c ≠ '"' ∧ c ≠ '/'

theorem charAt_append (a : List Char) (x : Char) (rest : List Char) :
    charAt (a ++ x :: rest) a.length = some x := by
  rw [charAt, if_neg (by omega), Int.toNat_natCast, List.getElem?_append_right (Nat.le_refl _)]
  simp

theorem isQuote_of_plain {x : Char} (h : Plain x) : isQuote (some x) = false := by
  simp [isQuote, h.1, h.2.1]

theorem findTheBrace_open (hchar : charAt expr offset = some o) (hoffset : 0 ≤ offset)
    (close : Option Char) : findTheBrace expr offset (some o) close = offset := by
  rw [findTheBrace_eq, if_neg (by omega), hchar]
  simp [isBrace]

theorem findTheBrace_close (hoc : o ≠ c) (hplain : Plain c) (hchar : charAt expr offset = some c)
    (hoffset : 0 ≤ offset) : findTheBrace expr offset (some o) (some c) =
      findTheBrace expr (findTheBrace expr (offset - 1) (some o) (some c) - 1) (some o) (some c) := by
  rw [findTheBrace_eq, if_neg (by omega), hchar]
  simp [isBrace, hoc.symm, isQuote_of_plain hplain, hplain.2.2]

theorem findTheBrace_other {x : Char} (hopen : x ≠ o) (hclose : x ≠ c) (hplain : Plain x)
    (hchar : charAt expr offset = some x) (hoffset : 0 ≤ offset) :
    findTheBrace expr offset (some o) (some c) =
      findTheBrace expr (offset - 1) (some o) (some c) := by
  rw [findTheBrace_eq, if_neg (by omega), hchar]
  simp [isBrace, hopen, hclose, isQuote_of_plain hplain, hplain.2.2]

/-- **The scan.** From the end of a balanced list it comes to the bracket before it. Induction on
the brackets: at a closing one, the scan inside finds its partner, and the scan outside goes on from
there. -/
theorem findTheBrace_balanced (hoc : o ≠ c) {b : List Char} (hb : Balanced o c b)
    (a rest : List Char)
    (hplain : ∀ x ∈ a ++ o :: (b ++ rest), Plain x) (hc : Plain c) :
    findTheBrace (a ++ o :: (b ++ rest)) (a.length + b.length) (some o) (some c) = a.length := by
  induction hb generalizing a rest with
  | nil => exact (findTheBrace_open (by simpa using charAt_append a o rest) (by omega) _).trans (by simp)
  | @other l x h hopen hclose ih =>
    have hexpr : a ++ o :: (l ++ [x] ++ rest) = (a ++ o :: l) ++ x :: rest := by simp
    have hchar : charAt (a ++ o :: (l ++ [x] ++ rest)) (a.length + (l ++ [x]).length) = some x := by
      rw [hexpr, ← charAt_append (a ++ o :: l) x rest]
      congr 1
      simp
    rw [findTheBrace_other hopen hclose (hplain x (by simp)) hchar (by omega)]
    have hrest : a ++ o :: (l ++ [x] ++ rest) = a ++ o :: (l ++ x :: rest) := by simp
    rw [hrest] at hplain ⊢
    refine Eq.trans ?_ (ih a (x :: rest) hplain)
    congr 1
    rw [List.length_append, List.length_singleton]
    omega
  | @pair a' b' ha hb iha ihb =>
    have hexpr : a ++ o :: (a' ++ o :: (b' ++ [c]) ++ rest) =
        (a ++ o :: a' ++ o :: b') ++ c :: rest := by simp
    have hchar : charAt (a ++ o :: (a' ++ o :: (b' ++ [c]) ++ rest))
        (a.length + (a' ++ o :: (b' ++ [c])).length) = some c := by
      rw [hexpr, ← charAt_append (a ++ o :: a' ++ o :: b') c rest]
      congr 1
      simp
      omega
    rw [findTheBrace_close hoc hc hchar (by omega)]
    have hinner := ihb (a ++ o :: a') (c :: rest) (by simpa using hplain)
    have houter := iha a (o :: (b' ++ c :: rest)) (by simpa using hplain)
    have hsame : a ++ o :: (a' ++ o :: (b' ++ [c]) ++ rest) =
        a ++ o :: a' ++ o :: (b' ++ c :: rest) := by simp
    have hsame' : a ++ o :: a' ++ o :: (b' ++ c :: rest) =
        a ++ o :: (a' ++ o :: (b' ++ c :: rest)) := by
      simp
    rw [hsame]
    have hat : ((a.length : ℤ) + (a' ++ o :: (b' ++ [c])).length - 1) =
        (a ++ o :: a').length + b'.length := by
      simp
      omega
    rw [hat, hinner, hsame']
    have hbefore : (((a ++ o :: a').length : ℤ) - 1) = a.length + a'.length := by
      simp
      omega
    rw [hbefore, houter]

/-! ## The result -/

structure Scans (expr : List Char) : Prop where
  quote : ∀ offset : ℤ, 0 ≤ offset → offset < expr.length →
    -1 ≤ findMatchingQuote expr offset ∧ findMatchingQuote expr offset ≤ offset
  slash : ∀ offset : ℤ, 0 ≤ offset → offset < expr.length →
    -1 ≤ findMatchingSlash expr offset ∧ findMatchingSlash expr offset ≤ offset
  brace : ∀ (offset : ℤ) (openBrace closeBrace : Option Char), 0 ≤ offset → offset < expr.length →
    -1 ≤ findTheBrace expr offset openBrace closeBrace ∧
      findTheBrace expr offset openBrace closeBrace ≤ offset
  matching : ∀ offset : ℤ, 0 ≤ offset → offset < expr.length →
    -1 ≤ findMatchingBrace expr offset ∧ findMatchingBrace expr offset ≤ offset
  expression : ∀ offset : ℤ, 0 ≤ offset → offset < expr.length →
    -1 ≤ getExpressionOffset expr offset ∧ getExpressionOffset expr offset ≤ offset + 1
  partner : (∀ x ∈ expr, Plain x) → ∀ (j : ℕ) (o c : Char), (o, c) ∈ [('(', ')'), ('[', ']')] →
    expr[j]? = some c → WellNested o c (expr.take (j + 1)) →
      (∃ i, Partner o c expr i j) ∧ ∀ i, Partner o c expr i j → findMatchingBrace expr j = i

/-- **The backwards scans.** -/
theorem scans (expr : List Char) : Scans expr where
  quote offset h0 _ := by
    have hbound := findBefore_bound expr (charAt expr offset) offset.toNat
    unfold findMatchingQuote
    omega
  slash offset h0 _ := by
    have hbound := findBefore_bound expr (some '/') offset.toNat
    unfold findMatchingSlash
    omega
  brace offset o c h0 _ := by
    have hbound := findTheBrace_bound expr offset o c
    exact ⟨hbound.1, by have := hbound.2; omega⟩
  matching offset h0 _ := findMatchingBrace_bound expr h0
  expression offset h0 _ := by
    have hbound := getExpressionOffset_bound expr (by omega : -2 ≤ offset)
    omega
  partner hplain j o c hkind hj hnested := by
    have hopen : openBraceOf (some c) = some o ∧ o ≠ c := by
      rcases List.mem_cons.mp hkind with heq | hkind
      · obtain ⟨rfl, rfl⟩ := Prod.mk.inj heq
        exact ⟨rfl, by decide⟩
      · obtain ⟨rfl, rfl⟩ := Prod.mk.inj (List.mem_singleton.mp hkind)
        exact ⟨rfl, by decide⟩
    refine ⟨hnested.exists_partner hopen.2 hj, ?_⟩
    rintro i ⟨a, b, rest, rfl, hb, rfl, rfl⟩
    have hchar : charAt (a ++ o :: (b ++ c :: rest)) (a.length + 1 + b.length : ℕ) = some c := by
      rw [charAt, if_neg (by omega), Int.toNat_natCast]
      exact hj
    have hc : Plain c := hplain c (by simp)
    rw [findMatchingBrace, hchar, hopen.1]
    rw [← findTheBrace_balanced hopen.2 hb a (c :: rest) hplain hc]
    congr 1
    omega

end JsParse
