import GnomeShellMobile.Akima.Basic
import Mathlib.Data.List.GetD
import Mathlib.Tactic.FieldSimp
import Mathlib.Tactic.Linarith

/-!
# Akima — the interpolating function is smooth

What `SplineInterpolatorAkima` of `src/js/dbusServices/sensorDaemon/akima.js` makes of nodes whose `x`
values increase.

* **`innerDerivative_ok`** — the weighted mean of two slopes has a denominator that is not zero, as has
  what is taken in its place when both weights vanish.
* **`interpolate_ok`** — each segment is the cubic with the values and first derivatives at its ends.
* **`createInterpolator_smooth`** — the headline: the function passes through every node, is the segment
  at hand everywhere, and adjacent segments agree in value and first derivative.
-/

namespace Akima

variable {i : ℕ}

/-! ## What is meant to hold -/

/-- The function `f` made of `segments` interpolates the nodes smoothly. -/
structure Smooth (xVals yVals : List ℚ) (segments : List (List ℚ)) (f : ℚ → Except Error ℚ) :
    Prop where
  length : segments.length + 1 = xVals.length
  through : ∀ (i : ℕ) x y, xVals[i]? = some x → yVals[i]? = some y → f x = .ok y
  /-- Between two nodes the function is the segment between them, and outside of all of them it is the
  first segment or the last one. -/
  segment : ∀ x, ∃ (i : ℕ) (c : List ℚ) (x0 : ℚ), segments[i]? = some c ∧ xVals[i]? = some x0 ∧
    f x = .ok ((toPoly c).eval (x - x0)) ∧ (x0 ≤ x ∨ i = 0) ∧
      ∀ x1, xVals[i + 1]? = some x1 → x < x1 ∨ i + 2 = xVals.length
  value : ∀ (i : ℕ) x0 x1 c c', xVals[i]? = some x0 → xVals[i + 1]? = some x1 → segments[i]? = some c →
    segments[i + 1]? = some c' → (toPoly c).eval (x1 - x0) = (toPoly c').eval 0
  derivative : ∀ (i : ℕ) x0 x1 c c', xVals[i]? = some x0 → xVals[i + 1]? = some x1 →
    segments[i]? = some c → segments[i + 1]? = some c' →
      (toPoly c).derivative.eval (x1 - x0) = (toPoly c').derivative.eval 0

/-! ## Loops that end -/

@[simp] theorem ok_bind {α β : Type} (v : α) (f : α → Except Error β) :
    (Except.ok v >>= f) = f v := rfl

@[simp] theorem pure_eq_ok {α : Type} (v : α) : (pure v : Except Error α) = .ok v := rfl

theorem read_of_lt {val : List ℚ} (h : i < val.length) : read val i = .ok (val.getD i 0) := by
  rw [read, List.getElem?_eq_getElem h, List.getD_eq_getElem _ _ h]

theorem div_of_ne {a b : ℚ} (h : b ≠ 0) : div a b = .ok (a / b) := if_neg h

/-- A loop that writes one element in each round. Induction on the number of rounds. -/
theorem mapM_range_ok {α : Type} {f : ℕ → Except Error α} {P : ℕ → α → Prop} {n : ℕ}
    (h : ∀ i < n, ∃ v, f i = .ok v ∧ P i v) :
    ∃ l, (List.range n).mapM f = .ok l ∧ l.length = n ∧ ∀ i v, l[i]? = some v → P i v := by
  induction n with
  | zero => exact ⟨[], rfl, rfl, fun i v hv => by cases hv⟩
  | succ n ih =>
    obtain ⟨l, hl, hlen, hall⟩ := ih fun i hi => h i (Nat.lt_succ_of_lt hi)
    obtain ⟨v, hv, hP⟩ := h n (Nat.lt_succ_self n)
    refine ⟨l ++ [v], ?_, by simp [hlen], ?_⟩
    · simp [List.range_succ, List.mapM_append, hl, hv]
    · intro i w hw
      rcases Nat.lt_trichotomy i n with hlt | heq | hgt
      · exact hall i w (by rwa [List.getElem?_append_left (hlen ▸ hlt)] at hw)
      · rw [List.getElem?_append_right (by omega), heq, hlen, Nat.sub_self] at hw
        cases hw
        exact heq ▸ hP
      · rw [List.getElem?_eq_none (by simp [hlen]; omega)] at hw
        cases hw

/-! ## The first derivatives -/

variable {xs ys : List ℚ}

theorem getD_lt (hmono : xs.Pairwise (· < ·)) {i j : ℕ} (hij : i < j) (hj : j < xs.length) :
    xs.getD i 0 < xs.getD j 0 := by
  have hi : i < xs.length := hij.trans hj
  rw [List.getD_eq_getElem _ _ hi, List.getD_eq_getElem _ _ hj]
  exact List.pairwise_iff_getElem.mp hmono i j hi hj hij

theorem difference_ok (hmono : xs.Pairwise (· < ·)) (hys : ys.length = xs.length)
    (hi : i < xs.length - 1) : ∃ v, difference xs ys i = .ok v ∧ True := by
  have hlt := getD_lt hmono (Nat.lt_succ_self i) (by omega)
  rw [difference, read_of_lt (by omega), read_of_lt (by omega), read_of_lt (by omega),
    read_of_lt (by omega)]
  exact ⟨_, div_of_ne (sub_ne_zero.mpr hlt.ne'), trivial⟩

theorem weight_ok {differences : List ℚ} (hi : i < differences.length) :
    ∃ v, weight differences i = .ok v ∧ (1 ≤ i → ∃ w, v = some w ∧ 0 ≤ w) := by
  unfold weight
  split
  · rw [read_of_lt hi, read_of_lt (by omega)]
    exact ⟨_, rfl, fun _ => ⟨_, rfl, abs_nonneg _⟩⟩
  · next hnot => exact ⟨none, rfl, fun h => absurd h hnot⟩

section

variable (hmono : xs.Pairwise (· < ·))
include hmono

/-- **The first derivative at an inner node.** Two weights that do not both vanish have a sum that does
not, and where they do the two neighbours are apart. -/
theorem innerDerivative_ok {differences : List ℚ}
    {weights : List (Option ℚ)} (hdiff : differences.length = xs.length - 1)
    (hlen : weights.length = xs.length - 1)
    (hweights : ∀ i v, weights[i]? = some v → 1 ≤ i → ∃ w, v = some w ∧ 0 ≤ w) (hi : 2 ≤ i)
    (hin : i < xs.length - 2) : ∃ v, innerDerivative xs differences weights i = .ok v := by
  have hwritten : ∀ j, 1 ≤ j → j < weights.length → ∃ w, readWritten weights j = .ok w ∧ 0 ≤ w := by
    intro j hj hlt
    obtain ⟨w, hw, hnonneg⟩ := hweights j weights[j] (List.getElem?_eq_getElem hlt) hj
    refine ⟨w, ?_, hnonneg⟩
    rw [readWritten, List.getElem?_eq_getElem hlt, hw]
  obtain ⟨wP, hwP, hP⟩ := hwritten (i + 1) (by omega) (by omega)
  obtain ⟨wM, hwM, hM⟩ := hwritten (i - 1) (by omega) (by omega)
  rw [innerDerivative, hwP, hwM, ok_bind, ok_bind,
    read_of_lt (show i - 1 < differences.length by omega),
    read_of_lt (show i < differences.length by omega)]
  split
  · have hlt := getD_lt hmono (show i - 1 < i + 1 by omega) (by omega)
    rw [read_of_lt (by omega), read_of_lt (by omega), read_of_lt (by omega)]
    exact ⟨_, div_of_ne (sub_ne_zero.mpr hlt.ne')⟩
  · next hnot =>
    refine ⟨_, div_of_ne fun hsum => hnot ?_⟩
    have hzero : wP = 0 ∧ wM = 0 := (add_eq_zero_iff_of_nonneg hP hM).mp hsum
    rw [hzero.1, hzero.2, abs_zero, epsilon]
    norm_num

theorem innerDerivatives_ok {differences : List ℚ}
    {weights : List (Option ℚ)} (hdiff : differences.length = xs.length - 1)
    (hlen : weights.length = xs.length - 1)
    (hweights : ∀ i v, weights[i]? = some v → 1 ≤ i → ∃ w, v = some w ∧ 0 ≤ w) (i : ℕ) :
    ∃ v, innerDerivatives xs differences weights i = .ok v ∧
      (2 ≤ i → i < xs.length - 2 → ∃ d, v = some d) := by
  unfold innerDerivatives
  split
  · next hcond =>
    obtain ⟨v, hv⟩ := innerDerivative_ok hmono hdiff hlen hweights hcond.1 hcond.2
    rw [hv]
    exact ⟨_, rfl, fun _ _ => ⟨v, rfl⟩⟩
  · next hnot => exact ⟨none, rfl, fun h2 hn => absurd ⟨h2, hn⟩ hnot⟩

theorem differentiateThreePoint_ok (hys : ys.length = xs.length)
    {i i0 i1 i2 : ℕ} (h01 : i0 < i1) (h12 : i1 < i2) (h2 : i2 < xs.length) (hi : i < xs.length) :
    ∃ v, differentiateThreePoint xs ys i i0 i1 i2 = .ok v := by
  have hlt1 := getD_lt hmono h01 (h12.trans h2)
  have hlt2 := getD_lt hmono h12 h2
  have ht1 : xs.getD i1 0 - xs.getD i0 0 ≠ 0 := sub_ne_zero.mpr hlt1.ne'
  have ht2 : (xs.getD i2 0 - xs.getD i0 0) * (xs.getD i2 0 - xs.getD i0 0) -
      (xs.getD i1 0 - xs.getD i0 0) * (xs.getD i2 0 - xs.getD i0 0) ≠ 0 := by
    rw [← sub_mul]
    exact mul_ne_zero (by linarith) (by linarith)
  rw [differentiateThreePoint, read_of_lt (by omega), read_of_lt (by omega), read_of_lt (by omega),
    read_of_lt hi, read_of_lt (by omega), read_of_lt (by omega), read_of_lt h2]
  simp only [ok_bind, div_of_ne ht1, div_of_ne ht2, pure_eq_ok]
  exact ⟨_, rfl⟩

end

theorem written_at_ends {inner : List (Option ℚ)} {n : ℕ} (hlen : inner.length = n)
    (hinner : ∀ i v, inner[i]? = some v → 2 ≤ i → i < n - 2 → ∃ d, v = some d)
    (first second lastButOne last : ℚ) (hi : i < n) :
    ∃ d, readWritten ((((inner.set 0 (some first)).set 1 (some second)).set (n - 2)
      (some lastButOne)).set (n - 1) (some last)) i = .ok d := by
  suffices h : ∃ d, ((((inner.set 0 (some first)).set 1 (some second)).set (n - 2)
      (some lastButOne)).set (n - 1) (some last))[i]? = some (some d) by
    obtain ⟨d, hd⟩ := h
    exact ⟨d, by rw [readWritten, hd]⟩
  simp only [List.getElem?_set, List.length_set, hlen]
  by_cases hlast : n - 1 = i
  · exact ⟨last, by rw [if_pos hlast, if_pos (hlast ▸ hi)]⟩
  by_cases hbutOne : n - 2 = i
  · exact ⟨lastButOne, by rw [if_neg hlast, if_pos hbutOne, if_pos (hbutOne ▸ hi)]⟩
  rw [if_neg hlast, if_neg hbutOne]
  by_cases hsecond : 1 = i
  · exact ⟨second, by rw [if_pos hsecond, if_pos (hsecond ▸ hi)]⟩
  by_cases hfirst : 0 = i
  · exact ⟨first, by rw [if_neg hsecond, if_pos hfirst, if_pos (hfirst ▸ hi)]⟩
  rw [if_neg hsecond, if_neg hfirst, List.getElem?_eq_getElem (hlen ▸ hi)]
  obtain ⟨d, hd⟩ := hinner i _ (List.getElem?_eq_getElem (hlen ▸ hi)) (by omega) (by omega)
  exact ⟨d, by rw [hd]⟩

/-! ## The segments -/

/-- The cubic with the values `ys` and the first derivatives `d` at its ends. -/
def hermite (xs ys : List ℚ) (d : ℕ → ℚ) (i : ℕ) : List ℚ :=
  let w := xs.getD (i + 1) 0 - xs.getD i 0
  let yv := ys.getD i 0
  let yvP := ys.getD (i + 1) 0
  [yv, d i, (3 * (yvP - yv) / w - 2 * d i - d (i + 1)) / w,
    (2 * (yv - yvP) / w + d i + d (i + 1)) / (w * w)]

section

variable (d : ℕ → ℚ) {i : ℕ}

theorem hermite_eval_zero : (toPoly (hermite xs ys d i)).eval 0 = ys.getD i 0 := by
  simp [hermite, toPoly]

theorem hermite_derivative_eval_zero : (toPoly (hermite xs ys d i)).derivative.eval 0 = d i := by
  simp [hermite, toPoly]

theorem hermite_eval_width (h : xs.getD i 0 < xs.getD (i + 1) 0) :
    (toPoly (hermite xs ys d i)).eval (xs.getD (i + 1) 0 - xs.getD i 0) = ys.getD (i + 1) 0 := by
  have hw : xs.getD (i + 1) 0 - xs.getD i 0 ≠ 0 := sub_ne_zero.mpr h.ne'
  simp only [hermite, toPoly, Polynomial.eval_add, Polynomial.eval_mul, Polynomial.eval_C,
    Polynomial.eval_X, Polynomial.eval_zero]
  generalize xs.getD (i + 1) 0 - xs.getD i 0 = w at hw
  field_simp
  ring

theorem hermite_derivative_eval_width (h : xs.getD i 0 < xs.getD (i + 1) 0) :
    (toPoly (hermite xs ys d i)).derivative.eval (xs.getD (i + 1) 0 - xs.getD i 0) = d (i + 1) := by
  have hw : xs.getD (i + 1) 0 - xs.getD i 0 ≠ 0 := sub_ne_zero.mpr h.ne'
  simp only [hermite, toPoly, Polynomial.derivative_add, Polynomial.derivative_mul,
    Polynomial.derivative_C, Polynomial.derivative_X, Polynomial.derivative_zero,
    Polynomial.eval_add, Polynomial.eval_mul, Polynomial.eval_C, Polynomial.eval_X,
    Polynomial.eval_zero, Polynomial.eval_one]
  generalize xs.getD (i + 1) 0 - xs.getD i 0 = w at hw
  field_simp
  ring

end

theorem hermiteSegment_ok (hmono : xs.Pairwise (· < ·)) (hys : ys.length = xs.length)
    {firstDerivatives : List (Option ℚ)} {d : ℕ → ℚ} (hi : i < xs.length - 1)
    (hd : ∀ j < xs.length, readWritten firstDerivatives j = .ok (d j)) :
    hermiteSegment xs ys firstDerivatives i = .ok (hermite xs ys d i) := by
  have hlt := getD_lt hmono (Nat.lt_succ_self i) (by omega)
  have hw : xs.getD (i + 1) 0 - xs.getD i 0 ≠ 0 := sub_ne_zero.mpr hlt.ne'
  rw [hermiteSegment, read_of_lt (by omega), read_of_lt (by omega), read_of_lt (by omega),
    read_of_lt (by omega), hd i (by omega), hd (i + 1) (by omega)]
  simp only [ok_bind, div_of_ne hw, div_of_ne (mul_ne_zero hw hw), pure_eq_ok, hermite]

theorem checkOrder_ok (val : List ℚ) (dir : OrderDirection) (strict : Bool) :
    ∃ ordered, checkOrder val dir strict false = .ok ordered := by
  unfold checkOrder
  cases completesOrder dir strict val with
  | true => exact ⟨true, rfl⟩
  | false => exact ⟨false, rfl⟩

/-- **What is computed.** No quotient has a denominator of zero, and each segment is the cubic with the
values and first derivatives at its ends. -/
theorem interpolate_ok (hmono : xs.Pairwise (· < ·)) (hys : ys.length = xs.length)
    (hlen : 5 ≤ xs.length) : ∃ segments d, interpolate xs ys = .ok segments ∧
      segments.length = xs.length - 1 ∧ ∀ i c, segments[i]? = some c → c = hermite xs ys d i := by
  obtain ⟨differences, hdiff, hdifflen, -⟩ := mapM_range_ok fun i hi => difference_ok hmono hys hi
  obtain ⟨weights, hweights, hweightslen, hnonneg⟩ :=
    mapM_range_ok fun i (hi : i < xs.length - 1) => weight_ok (hdifflen ▸ hi)
  obtain ⟨inner, hinner, hinnerlen, hsome⟩ := mapM_range_ok (n := xs.length) fun i _ =>
    innerDerivatives_ok hmono hdifflen hweightslen hnonneg i
  obtain ⟨first, hfirst⟩ := differentiateThreePoint_ok hmono hys (i := 0) (show 0 < 1 by omega)
    (show 1 < 2 by omega) (by omega) (by omega)
  obtain ⟨second, hsecond⟩ := differentiateThreePoint_ok hmono hys (i := 1) (show 0 < 1 by omega)
    (show 1 < 2 by omega) (by omega) (by omega)
  have h32 : xs.length - 3 < xs.length - 2 := by omega
  have h21 : xs.length - 2 < xs.length - 1 := by omega
  obtain ⟨lastButOne, hlastButOne⟩ := differentiateThreePoint_ok hmono hys (i := xs.length - 2) h32
    h21 (by omega) (by omega)
  obtain ⟨last, hlast⟩ := differentiateThreePoint_ok hmono hys (i := xs.length - 1) h32 h21
    (by omega) (by omega)
  -- every first derivative is written, so that each segment is computed
  have hwritten := fun i (hi : i < xs.length) =>
    written_at_ends hinnerlen hsome first second lastButOne last hi
  choose! d hd using hwritten
  obtain ⟨segments, hsegments, hsegmentslen, hall⟩ := mapM_range_ok fun i hi =>
    ⟨_, hermiteSegment_ok hmono hys hi hd, rfl⟩
  refine ⟨segments, d, ?_, hsegmentslen, fun i c hc => (hall i c hc).symm⟩
  obtain ⟨ordered, hordered⟩ := checkOrder_ok xs .increasing false
  rw [interpolate, if_neg (not_not.mpr hys.symm), if_neg (by rw [minimumNumberPoints]; omega),
    hordered, hdiff]
  simp only [ok_bind, hweights, hinner, hfirst, hsecond, hlastButOne, hlast]
  rw [interpolateHermiteSorted, if_neg (not_not.mpr hys.symm), if_neg (by simp [hinnerlen]),
    if_neg (by omega)]
  exact hsegments

/-! ## The function -/

theorem evaluatePolynomialSegment_of_index {segments : List (List ℚ)} {x x0 : ℚ} {r : ℤ} {k : ℕ}
    {c : List ℚ} (hr : binarySearch xs x = .ok r)
    (hk : max 0 (min (if r < 0 then -r - 2 else r) (segments.length - 1)) = (k : ℤ))
    (hc : segments[k]? = some c) (hx0 : xs[k]? = some x0) :
    evaluatePolynomialSegment xs segments x = .ok ((toPoly c).eval (x - x0)) := by
  rw [evaluatePolynomialSegment, hr, ok_bind]
  dsimp only
  rw [hk, Int.toNat_natCast, hc]
  dsimp only
  rw [read, hx0]
  show Except.ok (evaluatePolynomial c (x - x0)) = _
  rw [evaluatePolynomial_eq_eval]

/-- **The segment that is evaluated** at `x`. The cases are the answers of the search. -/
theorem evaluatePolynomialSegment_ok (hmono : xs.Pairwise (· < ·)) (hlen : 2 ≤ xs.length)
    {segments : List (List ℚ)} (hsegments : segments.length = xs.length - 1) (x : ℚ) :
    ∃ (i : ℕ) (c : List ℚ) (x0 : ℚ), segments[i]? = some c ∧ xs[i]? = some x0 ∧
      evaluatePolynomialSegment xs segments x = .ok ((toPoly c).eval (x - x0)) ∧ (x0 ≤ x ∨ i = 0) ∧
      ∀ x1, xs[i + 1]? = some x1 → x < x1 ∨ i + 2 = xs.length := by
  obtain ⟨r, hr, hsearched⟩ := binarySearch_searched hmono x
  -- what is left is to say where the clamped index is
  have hindex : ∀ k : ℕ, k < xs.length - 1 →
      max 0 (min (if r < 0 then -r - 2 else r) (segments.length - 1)) = (k : ℤ) →
      (∀ x0, xs[k]? = some x0 → x0 ≤ x ∨ k = 0) →
      (∀ x1, xs[k + 1]? = some x1 → x < x1 ∨ k + 2 = xs.length) →
      ∃ (i : ℕ) (c : List ℚ) (x0 : ℚ), segments[i]? = some c ∧ xs[i]? = some x0 ∧
        evaluatePolynomialSegment xs segments x = .ok ((toPoly c).eval (x - x0)) ∧
        (x0 ≤ x ∨ i = 0) ∧ ∀ x1, xs[i + 1]? = some x1 → x < x1 ∨ i + 2 = xs.length := by
    intro k hlt hk hbefore hafter
    have hc := List.getElem?_eq_getElem (l := segments) (i := k) (by omega)
    have hx0 := List.getElem?_eq_getElem (l := xs) (i := k) (by omega)
    exact ⟨k, _, _, hc, hx0, evaluatePolynomialSegment_of_index hr hk hc hx0, hbefore _ hx0, hafter⟩
  cases hsearched with
  | found i hi =>
    have hilen := (List.getElem?_eq_some_iff.mp hi).1
    refine hindex (min i (xs.length - 2)) (by omega) (by omega) ?_ ?_
    · intro x0 hx0
      rcases Nat.lt_or_ge (min i (xs.length - 2)) i with hlt | hge
      · exact .inl (getElem?_lt hmono hx0 hi hlt).le
      · have heq : min i (xs.length - 2) = i := by omega
        rw [heq, hi] at hx0
        exact .inl (Option.some.inj hx0).ge
    · intro x1 hx1
      rcases Nat.lt_or_ge i (xs.length - 1) with hlt | hge
      · exact .inl (getElem?_lt hmono hi hx1 (by omega))
      · exact .inr (by omega)
  | missing ins hlow hhigh =>
    refine hindex (min (ins - 1) (xs.length - 2)) (by omega) (by omega) ?_ ?_
    · intro x0 hx0
      rcases Nat.eq_zero_or_pos ins with hzero | hpos
      · exact .inr (by omega)
      · exact .inl (hlow _ x0 (by omega) hx0).le
    · intro x1 hx1
      rcases Nat.lt_or_ge (xs.length - 1) ins with hlt | hge
      · exact .inr (by omega)
      · exact .inl (hhigh _ x1 (by omega) hx1)

theorem getD_of_some {l : List ℚ} {v : ℚ} (h : l[i]? = some v) : l.getD i 0 = v := by
  rw [List.getD_eq_getElem?_getD, h, Option.getD_some]

theorem getD_lt_of_some (hmono : xs.Pairwise (· < ·)) {x1 : ℚ} (h1 : xs[i + 1]? = some x1) :
    xs.getD i 0 < xs.getD (i + 1) 0 :=
  getD_lt hmono (Nat.lt_succ_self i) (List.getElem?_eq_some_iff.mp h1).1

/-- **Every node is passed.** A node begins the segment that is evaluated there, or is the last one and
ends it. -/
theorem evaluatePolynomialSegment_node (hmono : xs.Pairwise (· < ·)) (hlen : 2 ≤ xs.length)
    {segments : List (List ℚ)} {d : ℕ → ℚ} (hsegments : segments.length = xs.length - 1)
    (hall : ∀ i c, segments[i]? = some c → c = hermite xs ys d i) {x y : ℚ}
    (hx : xs[i]? = some x) (hy : ys[i]? = some y) :
    evaluatePolynomialSegment xs segments x = .ok y := by
  obtain ⟨k, c, x0, hc, hx0, heval, hbefore, hafter⟩ :=
    evaluatePolynomialSegment_ok hmono hlen hsegments x
  have hilen := (List.getElem?_eq_some_iff.mp hx).1
  have hklen := (List.getElem?_eq_some_iff.mp hc).1
  have hki : k ≤ i := by
    rcases hbefore with hle | hzero
    · by_contra hlt
      exact absurd (getElem?_lt hmono hx hx0 (not_le.mp hlt)) (not_lt.mpr hle)
    · omega
  have hx1 := List.getElem?_eq_getElem (l := xs) (i := k + 1) (by omega)
  have hik : i = k ∨ i = k + 1 := by
    rcases hafter _ hx1 with hlt | hend
    · -- `x` is before the end of the segment
      by_contra hnot
      exact absurd hlt (not_lt.mpr (getElem?_lt hmono hx1 hx (by omega)).le)
    · omega
  rw [heval, hall k c hc]
  rcases hik with rfl | rfl
  · obtain rfl : x = x0 := Option.some.inj (hx.symm.trans hx0)
    rw [sub_self, hermite_eval_zero, getD_of_some hy]
  · rw [← getD_of_some hx0, ← getD_of_some hx, hermite_eval_width d (getD_lt_of_some hmono hx1),
      getD_of_some hy]

/-- **The function is smooth.** -/
theorem createInterpolator_smooth (hmono : xs.Pairwise (· < ·)) (hlen : 5 ≤ xs.length)
    (hys : ys.length = xs.length) : ∃ segments f, interpolate xs ys = .ok segments ∧
      createInterpolator xs ys = .ok f ∧ Smooth xs ys segments f := by
  obtain ⟨segments, d, hinterpolate, hsegments, hall⟩ := interpolate_ok hmono hys hlen
  refine ⟨segments, evaluatePolynomialSegment xs segments, hinterpolate, ?_, ?_⟩
  · rw [createInterpolator, hinterpolate]
    rfl
  constructor
  · omega
  · intro i x y hx hy
    exact evaluatePolynomialSegment_node hmono (by omega) hsegments hall hx hy
  · exact evaluatePolynomialSegment_ok hmono (by omega) hsegments
  · intro i x0 x1 c c' hx0 hx1 hc hc'
    rw [hall i c hc, hall (i + 1) c' hc', hermite_eval_zero, ← getD_of_some hx0,
      ← getD_of_some hx1, hermite_eval_width d (getD_lt_of_some hmono hx1)]
  · intro i x0 x1 c c' hx0 hx1 hc hc'
    rw [hall i c hc, hall (i + 1) c' hc', hermite_derivative_eval_zero, ← getD_of_some hx0,
      ← getD_of_some hx1, hermite_derivative_eval_width d (getD_lt_of_some hmono hx1)]

/-- Five nodes, of which the first four are on a line. -/
theorem createInterpolator_smooth_line :
    ∃ segments f, interpolate [0, 1, 2, 4, 5] [0, 1, 2, 4, 0] = .ok segments ∧
      createInterpolator [0, 1, 2, 4, 5] [0, 1, 2, 4, 0] = .ok f ∧
      Smooth [0, 1, 2, 4, 5] [0, 1, 2, 4, 0] segments f :=
  createInterpolator_smooth (by decide) (by decide) rfl

end Akima
