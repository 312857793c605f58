import Mathlib.Algebra.Order.Ring.Rat
import Mathlib.Data.List.Basic
import Mathlib.Tactic.Linarith

/-!
# Util — inserting into a sorted array

`lowerBound` and `insertSorted` of `js/misc/util.js`. Between its two bounds the search keeps the
elements that it has not compared: those before are below the value, those after are not
(`Between`).

* **`lowerBound_isFirst`**: the position that is found.
* **`insertSorted_sorted`**: the headline, with the array after the insertion.
-/

namespace Util

variable {α : Type*} {cmp : α → α → ℚ} {array : List α} {val : α} {min max : ℕ}

/-! ## The model -/

def below (array : List α) (val : α) (cmp : α → α → ℚ) (i : ℕ) : Bool :=
  array[i]?.any fun a => cmp a val < 0

/-- The loop of `lowerBound`: `min` and `max` at its end. -/
def search (array : List α) (val : α) (cmp : α → α → ℚ) (min max : ℕ) : ℕ × ℕ :=
  if min + 1 < max then
    let mid := (min + max) / 2
    if below array val cmp mid then search array val cmp (mid + 1) max
    else search array val cmp min mid
  else (min, max)
termination_by max - min

def lowerBound (array : List α) (val : α) (cmp : α → α → ℚ) : ℕ :=
  if array.length = 0 then 0
  else
    let (min, max) := search array val cmp 0 array.length
    if min = max ∨ below array val cmp min then max else min

/-- `insertSorted`: the position, and the array after `splice(pos, 0, val)`. -/
def insertSorted (array : List α) (val : α) (cmp : α → α → ℚ) : ℕ × List α :=
  let pos := lowerBound array val cmp
  (pos, array.take pos ++ val :: array.drop pos)

def compareNumbers (a b : ℚ) : ℚ := a - b

/-! ## What is asked of it -/

structure StrictWeakOrder (cmp : α → α → ℚ) : Prop where
  irrefl : ∀ a, ¬ cmp a a < 0
  trans : ∀ a b c, cmp a b < 0 → cmp b c < 0 → cmp a c < 0
  negTrans : ∀ a b c, ¬ cmp a b < 0 → ¬ cmp b c < 0 → ¬ cmp a c < 0

theorem strictWeakOrder_compareNumbers : StrictWeakOrder compareNumbers where
  irrefl a := by simp [compareNumbers]
  trans a b c hab hbc := by
    unfold compareNumbers at *
    linarith
  negTrans a b c hab hbc := by
    unfold compareNumbers at *
    linarith

def Sorted (cmp : α → α → ℚ) (array : List α) : Prop := array.Pairwise fun a b => ¬ cmp b a < 0
deriving Decidable

/-- `pos` is the first position whose element is not below the value, or the length of the array. -/
structure IsFirst (array : List α) (val : α) (cmp : α → α → ℚ) (pos : ℕ) : Prop where
  le_length : pos ≤ array.length
  before : ∀ i, i < pos → below array val cmp i = true
  at_pos : below array val cmp pos = false

/-! ## The search -/

theorem below_eq_false_of_length_le {i : ℕ} (h : array.length ≤ i) :
    below array val cmp i = false := by
  rw [below, List.getElem?_eq_none h]
  rfl

theorem below_of_le (horder : StrictWeakOrder cmp) (hsorted : Sorted cmp array)
    {i j : ℕ} (hij : i ≤ j)
    (h : below array val cmp j = true) : below array val cmp i = true := by
  rcases Nat.eq_or_lt_of_le hij with rfl | hlt
  · exact h
  obtain ⟨b, hb, hbelow⟩ := (Option.any_eq_true _ _).mp h
  obtain ⟨hj, rfl⟩ := List.getElem?_eq_some_iff.mp hb
  have hle := List.pairwise_iff_getElem.mp hsorted i j (hlt.trans hj) hj hlt
  rw [below, List.getElem?_eq_getElem (hlt.trans hj)]
  refine decide_eq_true ?_
  by_contra hnot
  exact horder.negTrans _ _ _ hle hnot (of_decide_eq_true hbelow)

/-- The elements before `min` are below the value, and those from `max` on are not. -/
structure Between (array : List α) (val : α) (cmp : α → α → ℚ) (min max : ℕ) : Prop where
  le : min ≤ max
  le_length : max ≤ array.length
  before : ∀ i, i < min → below array val cmp i = true
  after : ∀ i, max ≤ i → below array val cmp i = false

/-- What the loop leaves: at most one element that has not been compared. Induction on the loop. -/
theorem Between.search (horder : StrictWeakOrder cmp) (hsorted : Sorted cmp array)
    (h : Between array val cmp min max) :
    Between array val cmp (search array val cmp min max).1 (search array val cmp min max).2 ∧
      (search array val cmp min max).2 ≤ (search array val cmp min max).1 + 1 := by
  induction min, max using search.induct array val cmp with
  | case1 min max hlt mid hbelow ih =>
    rw [Util.search, if_pos hlt, if_pos hbelow]
    refine ih ⟨by omega, h.le_length, fun i hi => ?_, h.after⟩
    exact below_of_le horder hsorted (Nat.le_of_lt_succ hi) hbelow
  | case2 min max hlt mid hbelow ih =>
    rw [Util.search, if_pos hlt, if_neg hbelow]
    have hmid : mid ≤ array.length := by
      have := h.le_length
      omega
    refine ih ⟨by omega, hmid, h.before, fun i hi => ?_⟩
    -- an element after `mid` that is below the value would put `mid` below it
    exact Bool.eq_false_iff.mpr fun hi' => hbelow (below_of_le horder hsorted hi hi')
  | case3 min max hlt =>
    rw [Util.search, if_neg hlt]
    exact ⟨h, by omega⟩

theorem lowerBound_isFirst (horder : StrictWeakOrder cmp) (hsorted : Sorted cmp array) (val : α) :
    IsFirst array val cmp (lowerBound array val cmp) := by
  rw [lowerBound]
  split
  · next hempty =>
    exact ⟨Nat.zero_le _, fun i hi => absurd hi (by omega), below_eq_false_of_length_le (by omega)⟩
  have hstart : Between array val cmp 0 array.length :=
    ⟨Nat.zero_le _, le_rfl, fun i hi => absurd hi (by omega), fun i => below_eq_false_of_length_le⟩
  obtain ⟨hend, hone⟩ := hstart.search horder hsorted
  dsimp only
  generalize search array val cmp 0 array.length = r at hend hone
  have hle := hend.le
  have hlength := hend.le_length
  split
  · next hmax =>
    refine ⟨hlength, fun i hi => ?_, hend.after _ le_rfl⟩
    rcases hmax with heq | hbelow
    · exact hend.before i (heq ▸ hi)
    · exact below_of_le horder hsorted (by omega) hbelow
  · next hmin =>
    rw [not_or] at hmin
    exact ⟨hle.trans hlength, hend.before, Bool.eq_false_iff.mpr hmin.2⟩

/-! ## The insertion -/

theorem below_getElem {i : ℕ} (hi : i < array.length) :
    below array val cmp i = true ↔ cmp array[i] val < 0 := by
  rw [below, List.getElem?_eq_getElem hi]
  exact decide_eq_true_iff

theorem insertIdx_of_le (val : α) {l : List α} {pos : ℕ} (h : pos ≤ l.length) :
    l.insertIdx pos val = l.take pos ++ val :: l.drop pos := by
  induction l generalizing pos with
  | nil =>
    obtain rfl := Nat.le_zero.mp h
    rfl
  | cons a l ih =>
    cases pos with
    | zero => rfl
    | succ pos =>
      rw [List.insertIdx_succ_cons, ih (Nat.le_of_succ_le_succ h)]
      rfl

/-- **Inserting into a sorted array.** `insertSorted` answers the first position whose element is
not below the value, puts the value there and nothing else, and leaves the array sorted. -/
theorem insertSorted_sorted (horder : StrictWeakOrder cmp) (hsorted : Sorted cmp array) (val : α) :
    IsFirst array val cmp (lowerBound array val cmp) ∧
      (insertSorted array val cmp).1 = lowerBound array val cmp ∧
      (insertSorted array val cmp).2 = array.insertIdx (insertSorted array val cmp).1 val ∧
      Sorted cmp (insertSorted array val cmp).2 := by
  have hfirst := lowerBound_isFirst horder hsorted val
  refine ⟨hfirst, rfl, ?_, ?_⟩
  · show array.take _ ++ val :: array.drop _ = _
    exact (insertIdx_of_le val hfirst.le_length).symm
  have hasymm : ∀ a, cmp a val < 0 → ¬ cmp val a < 0 := fun a hav hva =>
    horder.irrefl a (horder.trans a val a hav hva)
  have hbefore : ∀ a ∈ array.take (lowerBound array val cmp), cmp a val < 0 := by
    intro a ha
    obtain ⟨i, hi, rfl⟩ := List.mem_take_iff_getElem.mp ha
    exact (below_getElem (by omega)).mp (hfirst.before i (by omega))
  have hafter : ∀ a ∈ array.drop (lowerBound array val cmp), ¬ cmp a val < 0 := by
    intro a ha hbelow
    obtain ⟨i, hi, rfl⟩ := List.mem_drop_iff_getElem.mp ha
    have hat := below_of_le horder hsorted (Nat.le_add_right (lowerBound array val cmp) i)
      ((below_getElem (by omega)).mpr hbelow)
    rw [hfirst.at_pos] at hat
    cases hat
  show List.Pairwise _ (array.take _ ++ val :: array.drop _)
  rw [List.pairwise_append, List.pairwise_cons]
  refine ⟨hsorted.sublist (List.take_sublist _ _),
    ⟨hafter, hsorted.sublist (List.drop_sublist _ _)⟩,
    fun a ha b hb => ?_⟩
  rcases List.mem_cons.mp hb with rfl | hb
  · exact hasymm a (hbefore a ha)
  · exact horder.negTrans b val a (hafter b hb) (hasymm a (hbefore a ha))

/-- A value that is there twice. -/
theorem insertSorted_sorted_twice : IsFirst [1, 2, 2, 3] 2 compareNumbers
      (lowerBound [1, 2, 2, 3] 2 compareNumbers) ∧
    (insertSorted [1, 2, 2, 3] 2 compareNumbers).1 = lowerBound [1, 2, 2, 3] 2 compareNumbers ∧
    (insertSorted [1, 2, 2, 3] 2 compareNumbers).2 =
      [1, 2, 2, 3].insertIdx (insertSorted [1, 2, 2, 3] 2 compareNumbers).1 2 ∧
    Sorted compareNumbers (insertSorted [1, 2, 2, 3] 2 compareNumbers).2 :=
  insertSorted_sorted strictWeakOrder_compareNumbers (by decide +kernel) 2

end Util
