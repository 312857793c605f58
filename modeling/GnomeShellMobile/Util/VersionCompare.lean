import Mathlib.Algebra.Order.Ring.Rat
import Mathlib.Order.PiLex
import Mathlib.Tactic.Linarith

/-!
# Util — comparing versions

`GNOMEversionCompare` of `js/misc/util.js`. A version stands for the sequence of the numbers of its
components, with zeros after its end (`key`), and the comparison is the lexicographic one of these
sequences (`compare_spec`). So it is a total preorder, and what a component is ordered before does
not depend on what comes after it.

* **`versionCompare_preorder`**: the headline.
-/

namespace VersionCompare

structure Rounding where
  round : ℕ → ℚ
  round_zero : round 0 = 0
  mono : Monotone round

variable (r : Rounding)

/-! ## The model -/

def value (digits : List Char) : ℕ := digits.foldl (fun n c => 10 * n + (c.toNat - 48)) 0

variable (version : List Char)

/-- `Number` of a component, of the spellings that are decimal; `none` is `NaN`. -/
def number : Option ℚ :=
  if version ≠ [] ∧ version.all Char.isDigit then some (r.round (value version)) else none

def versionToNumber : Option ℚ :=
  match number r version with
  | some n => some n
  | none =>
    if version = "alpha".toList then some (-3)
    else if version = "beta".toList then some (-2)
    else if version = "rc".toList then some (-1)
    else none

/-- `<` of numbers, which does not hold of `NaN`. -/
def less : Option ℚ → Option ℚ → Bool
  | some a, some b => a < b
  | _, _ => false

def elem (vArray : List (List Char)) (i : ℕ) : Option ℚ :=
  versionToNumber r ((vArray[i]?.filter (· ≠ [])).getD ['0'])

def compareFrom (v1Array v2Array : List (List Char)) : ℕ → ℕ → ℤ
  | 0, _ => 0
  | n + 1, i =>
    if less (elem r v1Array i) (elem r v2Array i) then -1
    else if less (elem r v2Array i) (elem r v1Array i) then 1
    else compareFrom v1Array v2Array n (i + 1)

def split : List (List Char) := version.splitOn '.'

def versionCompare (version1 version2 : List Char) : ℤ :=
  compareFrom r (split version1) (split version2)
    (max (split version1).length (split version2).length) 0

/-! ## Versions -/

def IsNumber (c : List Char) : Prop := c ≠ [] ∧ c.all Char.isDigit
deriving Decidable

def IsWord (c : List Char) : Prop := c = "alpha".toList ∨ c = "beta".toList ∨ c = "rc".toList
deriving Decidable

def IsVersion (v : List Char) : Prop := ∀ c ∈ split v, IsNumber c ∨ IsWord c
deriving Decidable

def IsRelease (v : List Char) : Prop := ∀ c ∈ split v, IsNumber c
deriving Decidable

/-! ## The numbers of a version -/

def key (vArray : List (List Char)) (i : ℕ) : ℚ := (elem r vArray i).getD 0

variable {r} {c : List Char} {v v' w pre rest rest' : List (List Char)}

theorem exists_number (h : IsNumber c) : ∃ n, 0 ≤ n ∧ versionToNumber r c = some n := by
  have hnumber : number r c = some (r.round (value c)) := if_pos h
  refine ⟨r.round (value c), ?_, by rw [versionToNumber, hnumber]⟩
  rw [← r.round_zero]
  exact r.mono (Nat.zero_le _)

theorem exists_word (h : IsWord c) : ∃ n, n ≤ -1 ∧ versionToNumber r c = some n := by
  rcases h with rfl | rfl | rfl
  · exact ⟨-3, by norm_num, rfl⟩
  · exact ⟨-2, by norm_num, rfl⟩
  · exact ⟨-1, by norm_num, rfl⟩

theorem IsWord.ne_nil (h : IsWord c) : c ≠ [] := by
  rcases h with rfl | rfl | rfl <;> decide

theorem component_ne_nil (h : IsNumber c ∨ IsWord c) : c ≠ [] := h.elim And.left IsWord.ne_nil

theorem elem_of_le {i : ℕ} (h : v.length ≤ i) : elem r v i = some 0 := by
  have hzero : versionToNumber r ['0'] = some (r.round 0) := rfl
  rw [elem, List.getElem?_eq_none h]
  exact hzero.trans (congrArg some r.round_zero)

theorem elem_of_getElem? {i : ℕ} (h : v[i]? = some c) (hc : c ≠ []) :
    elem r v i = versionToNumber r c := by
  rw [elem, h, Option.filter_some, if_pos (decide_eq_true hc)]
  rfl

theorem elem_eq_key (h : ∀ c ∈ v, IsNumber c ∨ IsWord c) (i : ℕ) :
    elem r v i = some (key r v i) := by
  have hsome : ∃ n, elem r v i = some n := by
    rcases Nat.lt_or_ge i v.length with hi | hi
    · have hc := h _ (List.getElem_mem hi)
      rw [elem_of_getElem? (List.getElem?_eq_getElem hi) (component_ne_nil hc)]
      rcases hc with hc | hc
      · exact (exists_number hc).imp fun _ h => h.2
      · exact (exists_word hc).imp fun _ h => h.2
    · exact ⟨0, elem_of_le hi⟩
  obtain ⟨n, hn⟩ := hsome
  rw [key, hn]
  rfl

theorem key_of_le {i : ℕ} (h : v.length ≤ i) : key r v i = 0 := by
  rw [key, elem_of_le h]
  rfl

theorem key_append_left {i : ℕ} (h : i < pre.length) : key r (pre ++ rest) i = key r pre i := by
  rw [key, key, elem, elem, List.getElem?_append_left h]

theorem key_nonneg (h : ∀ c ∈ v, IsNumber c) (i : ℕ) : 0 ≤ key r v i := by
  rcases Nat.lt_or_ge i v.length with hi | hi
  · have hc := h _ (List.getElem_mem hi)
    obtain ⟨n, hn, heq⟩ := exists_number (r := r) hc
    rw [key, elem_of_getElem? (List.getElem?_eq_getElem hi) hc.1, heq]
    exact hn
  · rw [key_of_le hi]

theorem key_at (hc : c ≠ []) {n : ℚ} (h : versionToNumber r c = some n) :
    key r (pre ++ c :: rest) pre.length = n := by
  have hget : (pre ++ c :: rest)[pre.length]? = some c := by simp
  rw [key, elem_of_getElem? hget hc, h]
  rfl

/-! ## The comparison -/

/-- What the loop answers, when the components before `i` are equal. Induction on its turns. -/
theorem compareFrom_spec (hv : ∀ c ∈ v, IsNumber c ∨ IsWord c) (hw : ∀ c ∈ w, IsNumber c ∨ IsWord c)
    {n i : ℕ} (hn : max v.length w.length ≤ i + n) (heq : ∀ j < i, key r v j = key r w j) :
    (compareFrom r v w n i = -1 ∧ toLex (key r v) < toLex (key r w)) ∨
      (compareFrom r v w n i = 0 ∧ key r v = key r w) ∨
      (compareFrom r v w n i = 1 ∧ toLex (key r w) < toLex (key r v)) := by
  induction n generalizing i with
  | zero =>
    refine .inr (.inl ⟨rfl, funext fun j => ?_⟩)
    rcases Nat.lt_or_ge j i with hj | hj
    · exact heq j hj
    · rw [key_of_le (by omega), key_of_le (by omega)]
  | succ n ih =>
    have hless : ∀ a b : ℚ, less (some a) (some b) = decide (a < b) := fun _ _ => rfl
    rw [compareFrom, elem_eq_key hv, elem_eq_key hw, hless, hless]
    rcases lt_trichotomy (key r v i) (key r w i) with hlt | hsame | hlt
    · rw [if_pos (decide_eq_true hlt)]
      exact .inl ⟨rfl, i, heq, hlt⟩
    · rw [if_neg (by simp [hsame]), if_neg (by simp [hsame])]
      refine ih (by omega) fun j hj => ?_
      rcases Nat.lt_succ_iff_lt_or_eq.mp hj with hj | rfl
      · exact heq j hj
      · exact hsame
    · rw [if_neg (by simpa using hlt.le), if_pos (decide_eq_true hlt)]
      exact .inr (.inr ⟨rfl, i, fun j hj => (heq j hj).symm, hlt⟩)

def sequence (r : Rounding) (v : List Char) : Lex (ℕ → ℚ) := toLex (key r (split v))

theorem compare_spec {v w : List Char} (hv : IsVersion v) (hw : IsVersion w) :
    (versionCompare r v w = -1 ∧ sequence r v < sequence r w) ∨
      (versionCompare r v w = 0 ∧ sequence r v = sequence r w) ∨
      (versionCompare r v w = 1 ∧ sequence r w < sequence r v) := by
  rcases compareFrom_spec (r := r) hv hw (n := max (split v).length (split w).length) (i := 0)
    (by omega) (fun j hj => absurd hj (Nat.not_lt_zero j)) with h | h | h
  · exact .inl h
  · exact .inr (.inl ⟨h.1, congrArg toLex h.2⟩)
  · exact .inr (.inr h)

theorem compare_eq_neg_one_iff {v w : List Char} (hv : IsVersion v) (hw : IsVersion w) :
    versionCompare r v w = -1 ↔ sequence r v < sequence r w := by
  rcases compare_spec (r := r) hv hw with ⟨heq, h⟩ | ⟨heq, h⟩ | ⟨heq, h⟩
  · exact iff_of_true heq h
  · exact iff_of_false (by omega) h.not_lt
  · exact iff_of_false (by omega) h.not_gt

theorem compare_nonpos_iff {v w : List Char} (hv : IsVersion v) (hw : IsVersion w) :
    versionCompare r v w ≤ 0 ↔ sequence r v ≤ sequence r w := by
  rcases compare_spec (r := r) hv hw with ⟨heq, h⟩ | ⟨heq, h⟩ | ⟨heq, h⟩
  · exact iff_of_true (by omega) h.le
  · exact iff_of_true (by omega) h.le
  · exact iff_of_false (by omega) h.not_ge

theorem compare_self {v : List Char} (hv : IsVersion v) : versionCompare r v v = 0 := by
  rcases compare_spec (r := r) hv hv with ⟨-, h⟩ | ⟨heq, -⟩ | ⟨-, h⟩
  · exact absurd h (lt_irrefl _)
  · exact heq
  · exact absurd h (lt_irrefl _)

theorem compare_symm {v w : List Char} (hv : IsVersion v) (hw : IsVersion w) :
    versionCompare r w v = -versionCompare r v w := by
  rcases compare_spec (r := r) hv hw with ⟨heq, h⟩ | ⟨heq, h⟩ | ⟨heq, h⟩
  · rcases compare_spec (r := r) hw hv with ⟨-, h'⟩ | ⟨-, h'⟩ | ⟨heq', -⟩
    · exact absurd h' h.asymm
    · exact absurd h' h.ne'
    · omega
  · rcases compare_spec (r := r) hw hv with ⟨-, h'⟩ | ⟨heq', -⟩ | ⟨-, h'⟩
    · exact absurd h h'.ne'
    · omega
    · exact absurd h h'.ne
  · rcases compare_spec (r := r) hw hv with ⟨heq', -⟩ | ⟨-, h'⟩ | ⟨-, h'⟩
    · omega
    · exact absurd h' h.ne
    · exact absurd h' h.asymm

/-! ## Words, missing components, and pre-releases -/

theorem sequence_lt {v w : List Char} {c d : List Char} {n m : ℚ} (hv : split v = pre ++ c :: rest)
    (hw : split w = pre ++ d :: rest') (hc : c ≠ []) (hd : d ≠ [])
    (hn : versionToNumber r c = some n)
    (hm : versionToNumber r d = some m) (h : n < m) : sequence r v < sequence r w := by
  refine ⟨pre.length, fun j hj => ?_, ?_⟩
  · show key r (split v) j = key r (split w) j
    rw [hv, hw, key_append_left hj, key_append_left hj]
  · show key r (split v) pre.length < key r (split w) pre.length
    rw [hv, hw, key_at hc hn, key_at hd hm]
    exact h

theorem key_append_zeros {zeros : List (List Char)}
    (hzeros : ∀ c ∈ zeros, c ≠ [] ∧ versionToNumber r c = some 0) :
    key r (v ++ zeros) = key r v := by
  funext i
  rcases Nat.lt_or_ge i v.length with hi | hi
  · exact key_append_left hi
  rw [key_of_le hi]
  cases hget : zeros[i - v.length]? with
  | none => exact key_of_le (by rw [List.length_append]; have := List.getElem?_eq_none_iff.mp hget; omega)
  | some c =>
    obtain ⟨hc, hnumber⟩ := hzeros c (List.mem_of_getElem? hget)
    rw [key, elem_of_getElem? ((List.getElem?_append_right hi).trans hget) hc, hnumber]
    rfl

theorem sequence_lt_prerelease {x y p : List Char} (hy : IsRelease y)
    (hp : split p = split x ++ rest)
    (h : sequence r y < sequence r x) : sequence r y < sequence r p := by
  obtain ⟨i, heq, hlt⟩ := h
  have hi : i < (split x).length := by
    by_contra hnot
    have hzero : key r (split x) i = 0 := key_of_le (not_lt.mp hnot)
    have hnonneg := key_nonneg (r := r) hy i
    exact absurd hnonneg (not_le.mpr (hzero ▸ hlt))
  refine ⟨i, fun j hj => (heq j hj).trans ?_, hlt.trans_eq ?_⟩
  · show key r (split x) j = key r (split p) j
    rw [hp, key_append_left (hj.trans hi)]
  · show key r (split x) i = key r (split p) i
    rw [hp, key_append_left hi]

theorem sequence_prerelease_lt {x p : List Char} (hc : IsWord c)
    (hp : split p = split x ++ c :: rest) :
    sequence r p < sequence r x := by
  obtain ⟨n, hn, hnumber⟩ := exists_word (r := r) hc
  refine ⟨(split x).length, fun j hj => ?_, ?_⟩
  · show key r (split p) j = key r (split x) j
    rw [hp, key_append_left hj]
  · show key r (split p) (split x).length < key r (split x) (split x).length
    rw [hp, key_at hc.ne_nil hnumber, key_of_le le_rfl]
    linarith

/-! ## The result -/

/-- `a` is ordered before `b` at any position. -/
def Precedes (r : Rounding) (a b : List Char) : Prop :=
  ∀ v w pre rest rest', IsVersion v → IsVersion w → split v = pre ++ a :: rest →
    split w = pre ++ b :: rest' → versionCompare r v w = -1

theorem precedes_of_lt {a b : List Char} (ha : a ≠ []) (hb : b ≠ []) {n m : ℚ}
    (hn : versionToNumber r a = some n) (hm : versionToNumber r b = some m) (h : n < m) :
    Precedes r a b := fun _ _ _ _ _ hv hw hsplit hsplit' =>
  (compare_eq_neg_one_iff hv hw).mpr (sequence_lt hsplit hsplit' ha hb hn hm h)

structure Sorts (r : Rounding) : Prop where
  refl : ∀ v, IsVersion v → versionCompare r v v = 0
  symm : ∀ v w, IsVersion v → IsVersion w → versionCompare r w v = -versionCompare r v w
  trans : ∀ u v w, IsVersion u → IsVersion v → IsVersion w → versionCompare r u v ≤ 0 →
    versionCompare r v w ≤ 0 → versionCompare r u w ≤ 0
  alpha_beta : Precedes r "alpha".toList "beta".toList
  beta_rc : Precedes r "beta".toList "rc".toList
  rc_number : ∀ c, IsNumber c → Precedes r "rc".toList c
  zeros : ∀ v v' w zeros, IsVersion v → IsVersion w → (∀ c ∈ zeros, c = ['0']) →
    split v' = split v ++ zeros → versionCompare r v' w = versionCompare r v w
  /-- A word after `x`, and whatever follows, makes a pre-release of `x`. -/
  prerelease : ∀ x p c rest, IsVersion x → IsVersion p → IsWord c → split p = split x ++ c :: rest →
    versionCompare r p x = -1 ∧
      ∀ y, IsRelease y → versionCompare r y x = -1 → versionCompare r y p = -1

theorem isVersion_of_isRelease {v : List Char} (h : IsRelease v) : IsVersion v :=
  fun c hc => .inl (h c hc)

/-- **Comparing versions.** The comparison is a total preorder on the versions. -/
theorem versionCompare_preorder (r : Rounding) : Sorts r where
  refl _ := compare_self
  symm _ _ := compare_symm
  trans u v w hu hv hw huv hvw :=
    (compare_nonpos_iff hu hw).mpr
      (((compare_nonpos_iff hu hv).mp huv).trans ((compare_nonpos_iff hv hw).mp hvw))
  alpha_beta := precedes_of_lt (by decide) (by decide) (n := -3) (m := -2) rfl rfl (by norm_num)
  beta_rc := precedes_of_lt (by decide) (by decide) rfl rfl (by norm_num)
  rc_number c hc := by
    obtain ⟨n, hn, hnumber⟩ := exists_number (r := r) hc
    have hrc : versionToNumber r "rc".toList = some (-1) := rfl
    exact precedes_of_lt (by decide) hc.1 hrc hnumber (by linarith)
  zeros v v' w zeros hv hw hzeros hsplit := by
    have hkey : key r (split v') = key r (split v) := by
      rw [hsplit]
      refine key_append_zeros fun c hc => ?_
      rw [hzeros c hc]
      exact ⟨by decide, (rfl : _ = some (r.round 0)).trans (congrArg some r.round_zero)⟩
    have hv' : IsVersion v' := by
      intro c hc
      rw [hsplit] at hc
      rcases List.mem_append.mp hc with hc | hc
      · exact hv c hc
      · rw [hzeros c hc]
        exact .inl (by decide)
    have hsequence : sequence r v' = sequence r v := congrArg toLex hkey
    rcases compare_spec (r := r) hv hw with ⟨heq, h⟩ | ⟨heq, h⟩ | ⟨heq, h⟩
    · rw [heq, (compare_eq_neg_one_iff hv' hw).mpr (hsequence ▸ h)]
    · rcases compare_spec (r := r) hv' hw with ⟨-, h'⟩ | ⟨heq', -⟩ | ⟨-, h'⟩
      · exact absurd (hsequence.symm.trans_lt h') h.not_lt
      · rw [heq, heq']
      · exact absurd (h'.trans_eq hsequence) h.not_gt
    · rw [heq, compare_symm hw hv', (compare_eq_neg_one_iff hw hv').mpr (hsequence ▸ h)]
      rfl
  prerelease x p c rest hx hp hc hsplit :=
    ⟨(compare_eq_neg_one_iff hp hx).mpr (sequence_prerelease_lt hc hsplit), fun y hy hlt => by
      have hyv := isVersion_of_isRelease hy
      have hlt := (compare_eq_neg_one_iff hyv hx).mp hlt
      exact (compare_eq_neg_one_iff hyv hp).mpr (sequence_lt_prerelease hy hsplit hlt)⟩

def exact : Rounding := ⟨fun n => n, Nat.cast_zero, Nat.mono_cast⟩

example : versionCompare exact "40.rc".toList "40".toList = -1 := by decide +kernel

end VersionCompare
