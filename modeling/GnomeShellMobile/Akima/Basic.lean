import Mathlib.Algebra.Order.Field.Rat
import Mathlib.Algebra.Polynomial.Derivative
import Mathlib.Algebra.Polynomial.Eval.Defs
import Mathlib.Tactic.Ring

/-!
# Akima — the interpolation of the brightness curves

`binarySearch`, `checkOrder` and `SplineInterpolatorAkima` of
`src/js/dbusServices/sensorDaemon/akima.js`, over rational numbers. A quotient by zero and a read
outside of an array, or of an element that was never written, are no numbers, and end the computation.

* **`binarySearchLoop_searched`** — where the search ends.
* **`evaluatePolynomial_eq_eval`** — Horner's rule evaluates the polynomial of the coefficients.
-/

namespace Akima

inductive Error where
  | thrown (message : String)
  | notANumber
deriving DecidableEq

def read (val : List ℚ) (i : ℕ) : Except Error ℚ :=
  match val[i]? with
  | some v => .ok v
  | none => .error .notANumber

/-- An element of an array made by `new Array`, in which some elements were never written. -/
def readWritten (val : List (Option ℚ)) (i : ℕ) : Except Error ℚ :=
  match val[i]? with
  | some (some v) => .ok v
  | _ => .error .notANumber

def div (a b : ℚ) : Except Error ℚ := if b = 0 then .error .notANumber else .ok (a / b)

/-! ## The search -/

/-- The loop of `binarySearch`. Nothing compares with an element that is not there. -/
def binarySearchLoop (a : List ℚ) (key : ℚ) (low high : ℤ) : Except Error ℤ :=
  if low ≤ high then
    let mid := (low + high) / 2
    match a[mid.toNat]? with
    | some midVal =>
      if midVal < key then binarySearchLoop a key (mid + 1) high
      else if midVal > key then binarySearchLoop a key low (mid - 1)
      else .ok mid
    | none => .error (.thrown "Invalid number encountered in binary search.")
  else .ok (-(low + 1))
termination_by (high + 1 - low).toNat
decreasing_by all_goals omega

def binarySearch (a : List ℚ) (key : ℚ) : Except Error ℤ :=
  binarySearchLoop a key 0 (a.length - 1)

inductive OrderDirection where
  | increasing
  | decreasing
deriving DecidableEq

def OrderDirection.breaks (dir : OrderDirection) (strict : Bool) (previous v : ℚ) : Bool :=
  match dir with
  | .increasing => if strict then v ≤ previous else v < previous
  | .decreasing => if strict then v ≥ previous else v > previous

def checkOrderLoop (dir : OrderDirection) (strict : Bool) (previous : ℚ) : List ℚ → Bool
  | [] => true
  | v :: val => if dir.breaks strict previous v then false else checkOrderLoop dir strict v val

/-- The loop of `checkOrder` is completed. That of an empty array ends with an index that is not its
length. -/
def completesOrder (dir : OrderDirection) (strict : Bool) : List ℚ → Bool
  | [] => false
  | previous :: val => checkOrderLoop dir strict previous val

def checkOrder (val : List ℚ) (dir : OrderDirection) (strict abort : Bool) : Except Error Bool :=
  if completesOrder dir strict val then .ok true
  else if abort then .error (.thrown "array was not ordered")
  else .ok false

/-! ## The coefficients -/

def differentiateThreePoint (xvals yvals : List ℚ)
    (indexOfDifferentiation indexOfFirstSample indexOfSecondSample indexOfThirdSample : ℕ) :
    Except Error ℚ := do
  let x0 ← read yvals indexOfFirstSample
  let x1 ← read yvals indexOfSecondSample
  let x2 ← read yvals indexOfThirdSample
  let t := (← read xvals indexOfDifferentiation) - (← read xvals indexOfFirstSample)
  let t1 := (← read xvals indexOfSecondSample) - (← read xvals indexOfFirstSample)
  let t2 := (← read xvals indexOfThirdSample) - (← read xvals indexOfFirstSample)
  let a ← div (x2 - x0 - (← div t2 t1) * (x1 - x0)) (t2 * t2 - t1 * t2)
  let b ← div (x1 - x0 - a * t1 * t1) t1
  return 2 * a * t + b

def hermiteSegment (xvals yvals : List ℚ) (firstDerivatives : List (Option ℚ)) (i : ℕ) :
    Except Error (List ℚ) := do
  let w := (← read xvals (i + 1)) - (← read xvals i)
  let w2 := w * w
  let yv ← read yvals i
  let yvP ← read yvals (i + 1)
  let fd ← readWritten firstDerivatives i
  let fdP ← readWritten firstDerivatives (i + 1)
  let coefficient2 ← div ((← div (3 * (yvP - yv)) w) - 2 * fd - fdP) w
  let coefficient3 ← div ((← div (2 * (yv - yvP)) w) + fd + fdP) w2
  return [yv, fd, coefficient2, coefficient3]

def interpolateHermiteSorted (xvals yvals : List ℚ) (firstDerivatives : List (Option ℚ)) :
    Except Error (List (List ℚ)) :=
  if xvals.length ≠ yvals.length then
    .error (.thrown ("xvals and yvals arrays have different sizes: xvals.length is " ++
      toString xvals.length ++ " while yvals.length is " ++ toString yvals.length))
  else if xvals.length ≠ firstDerivatives.length then
    .error (.thrown ("xvals and yvals arrays are not the same size as firstDerivatives: " ++
      "xvals.length is " ++ toString xvals.length ++ " while firstDerivatives is " ++
      ",".intercalate (firstDerivatives.map (·.elim "" toString))))
  else if xvals.length < 2 then
    .error (.thrown ("xvals is " ++ toString xvals.length ++ " which is less than minimum of 2"))
  else (List.range (xvals.length - 1)).mapM (hermiteSegment xvals yvals firstDerivatives)

def epsilon : ℚ := 1 / 2 ^ 52

def difference (xvals yvals : List ℚ) (i : ℕ) : Except Error ℚ := do
  div ((← read yvals (i + 1)) - (← read yvals i)) ((← read xvals (i + 1)) - (← read xvals i))

def weight (differences : List ℚ) (i : ℕ) : Except Error (Option ℚ) :=
  if 1 ≤ i then do
    return some |(← read differences i) - (← read differences (i - 1))|
  else .ok none

def innerDerivative (xvals differences : List ℚ) (weights : List (Option ℚ)) (i : ℕ) :
    Except Error ℚ := do
  let wP ← readWritten weights (i + 1)
  let wM ← readWritten weights (i - 1)
  if |wP| < epsilon ∧ |wM| < epsilon then
    let xv ← read xvals i
    let xvP ← read xvals (i + 1)
    let xvM ← read xvals (i - 1)
    div ((xvP - xv) * (← read differences (i - 1)) + (xv - xvM) * (← read differences i)) (xvP - xvM)
  else
    div (wP * (← read differences (i - 1)) + wM * (← read differences i)) (wP + wM)

/-- What the loop over `firstDerivatives` writes at `i`. -/
def innerDerivatives (xvals differences : List ℚ) (weights : List (Option ℚ)) (i : ℕ) :
    Except Error (Option ℚ) :=
  if 2 ≤ i ∧ i < xvals.length - 2 then do return some (← innerDerivative xvals differences weights i)
  else .ok none

def minimumNumberPoints : ℕ := 5

/-- `interpolate`. The answer of `checkOrder` is not looked at, nor is it asked to throw. -/
def interpolate (xvals yvals : List ℚ) : Except Error (List (List ℚ)) :=
  let n := xvals.length
  if n ≠ yvals.length then
    .error (.thrown ("xvals and yvals arrays have different sizes: xvals.length is " ++
      toString n ++ " while yvals.length is " ++ toString yvals.length))
  else if n < minimumNumberPoints then
    .error (.thrown ("Got " ++ toString n ++ " points but I need at least " ++
      toString minimumNumberPoints))
  else do
    let _ ← checkOrder xvals .increasing false false
    let differences ← (List.range (n - 1)).mapM (difference xvals yvals)
    let weights ← (List.range (n - 1)).mapM (weight differences)
    let inner ← (List.range n).mapM (innerDerivatives xvals differences weights)
    let first ← differentiateThreePoint xvals yvals 0 0 1 2
    let second ← differentiateThreePoint xvals yvals 1 0 1 2
    let lastButOne ← differentiateThreePoint xvals yvals (n - 2) (n - 3) (n - 2) (n - 1)
    let last ← differentiateThreePoint xvals yvals (n - 1) (n - 3) (n - 2) (n - 1)
    let firstDerivatives := (((inner.set 0 (some first)).set 1 (some second)).set (n - 2)
      (some lastButOne)).set (n - 1) (some last)
    interpolateHermiteSorted xvals yvals firstDerivatives

/-! ## The interpolating function -/

/-- `evaluatePolynomial`: the loop goes down from the last coefficient but one. -/
def evaluatePolynomial (c : List ℚ) (x : ℚ) : ℚ :=
  match c with
  | [] => 0
  | c0 :: cs => (c0 :: cs).dropLast.foldr (fun ci v => x * v + ci) 
    ((c0 :: cs).getLast (List.cons_ne_nil c0 cs))

def evaluatePolynomialSegment (xVals : List ℚ) (segmentCoeffs : List (List ℚ)) (x : ℚ) :
    Except Error ℚ := do
  let i ← binarySearch xVals x
  let i := if i < 0 then -i - 2 else i
  let i := max 0 (min i (segmentCoeffs.length - 1))
  match segmentCoeffs[i.toNat]? with
  | some c => return evaluatePolynomial c (x - (← read xVals i.toNat))
  | none => .error .notANumber

def createInterpolator (xVals yVals : List ℚ) : Except Error (ℚ → Except Error ℚ) := do
  let segmentCoeffs ← interpolate xVals yVals
  return evaluatePolynomialSegment xVals segmentCoeffs

/-! ## Where the search ends -/

variable {a : List ℚ} {key : ℚ}

/-- The key is found, or it would have to be inserted at `ins`. -/
inductive Searched (a : List ℚ) (key : ℚ) : ℤ → Prop where
  | found (i : ℕ) (h : a[i]? = some key) : Searched a key i
  | missing (ins : ℕ) (hlow : ∀ j v, j < ins → a[j]? = some v → v < key)
      (hhigh : ∀ j v, ins ≤ j → a[j]? = some v → key < v) : Searched a key (-(ins + 1))

theorem getElem?_lt (ha : a.Pairwise (· < ·)) {i j : ℕ} {v v' : ℚ} (hi : a[i]? = some v)
    (hj : a[j]? = some v') (hij : i < j) : v < v' := by
  obtain ⟨hilen, rfl⟩ := List.getElem?_eq_some_iff.mp hi
  obtain ⟨hjlen, rfl⟩ := List.getElem?_eq_some_iff.mp hj
  exact List.pairwise_iff_getElem.mp ha i j hilen hjlen hij

theorem binarySearchLoop_of_mid {low high : ℤ} {midVal : ℚ} (hcond : low ≤ high)
    (hmid : a[((low + high) / 2).toNat]? = some midVal) : binarySearchLoop a key low high =
      if midVal < key then binarySearchLoop a key ((low + high) / 2 + 1) high
      else if midVal > key then binarySearchLoop a key low ((low + high) / 2 - 1)
      else .ok ((low + high) / 2) := by
  rw [binarySearchLoop, if_pos hcond]
  dsimp only
  rw [hmid]

section

variable (ha : a.Pairwise (· < ·))
include ha

/-- What is before `low` is less than the key, and what is after `high` is greater. Induction on the
recursion of the loop. -/
theorem binarySearchLoop_searched (low high : ℤ) (hlow : 0 ≤ low)
    (hhigh : high < a.length) (hle : low ≤ high + 1)
    (hless : ∀ (j : ℕ) v, j < low → a[j]? = some v → v < key)
    (hgreater : ∀ (j : ℕ) v, high < j → a[j]? = some v → key < v) :
    ∃ r, binarySearchLoop a key low high = .ok r ∧ Searched a key r := by
  induction low, high using binarySearchLoop.induct a key with
  | case1 low high hcond mid midVal hmid hlt ih =>
    rw [binarySearchLoop_of_mid hcond hmid, if_pos hlt]
    have hbounds : low ≤ mid ∧ mid ≤ high := by omega
    refine ih (by omega) hhigh (by omega) ?_ hgreater
    -- what is before the middle is less than what is there
    intro j v hj hv
    rcases Nat.lt_or_ge j mid.toNat with hjlt | hjge
    · exact (getElem?_lt ha hv hmid hjlt).trans hlt
    · have hjeq : j = mid.toNat := by omega
      rw [hjeq, hmid] at hv
      exact Option.some.inj hv ▸ hlt
  | case2 low high hcond mid midVal hmid hnot hgt ih =>
    rw [binarySearchLoop_of_mid hcond hmid, if_neg hnot, if_pos hgt]
    have hbounds : low ≤ mid ∧ mid ≤ high := by omega
    refine ih hlow (by omega) (by omega) hless ?_
    intro j v hj hv
    rcases Nat.lt_or_ge mid.toNat j with hjlt | hjge
    · exact hgt.trans (getElem?_lt ha hmid hv hjlt)
    · have hjeq : j = mid.toNat := by omega
      rw [hjeq, hmid] at hv
      exact Option.some.inj hv ▸ hgt
  | case3 low high hcond mid midVal hmid hnot hngt =>
    rw [binarySearchLoop_of_mid hcond hmid, if_neg hnot, if_neg hngt]
    refine ⟨mid, rfl, ?_⟩
    have heq : midVal = key := le_antisymm (not_lt.mp hngt) (not_lt.mp hnot)
    have hcast : ((mid.toNat : ℕ) : ℤ) = mid := by omega
    rw [← hcast]
    exact .found _ (heq ▸ hmid)
  | case4 low high hcond mid hmid =>
    -- the middle is in the array
    have hlen := List.getElem?_eq_none_iff.mp hmid
    omega
  | case5 low high hcond =>
    rw [binarySearchLoop, if_neg hcond]
    refine ⟨_, rfl, ?_⟩
    have hcast : ((low.toNat : ℕ) : ℤ) = low := by omega
    rw [← hcast]
    refine .missing _ (fun j v hj => hless j v (by omega)) (fun j v hj => hgreater j v (by omega))

theorem binarySearch_searched (key : ℚ) :
    ∃ r, binarySearch a key = .ok r ∧ Searched a key r := by
  refine binarySearchLoop_searched ha 0 (a.length - 1) le_rfl (by omega) (by omega) ?_ ?_
  · intro j v hj
    omega
  · intro j v hj hv
    have hlen := (List.getElem?_eq_some_iff.mp hv).1
    omega

end

/-! ## Horner's rule -/

open Polynomial in
noncomputable def toPoly : List ℚ → ℚ[X]
  | [] => 0
  | c :: cs => C c + X * toPoly cs

theorem evaluatePolynomial_cons (c : ℚ) (cs : List ℚ) (x : ℚ) :
    evaluatePolynomial (c :: cs) x = c + x * evaluatePolynomial cs x := by
  cases cs with
  | nil => simp [evaluatePolynomial]
  | cons c' cs =>
    simp [evaluatePolynomial]
    ring

/-- **Horner's rule evaluates the polynomial.** Induction on the coefficients. -/
theorem evaluatePolynomial_eq_eval (c : List ℚ) (x : ℚ) :
    evaluatePolynomial c x = (toPoly c).eval x := by
  induction c with
  | nil => simp [evaluatePolynomial, toPoly]
  | cons c cs ih => simp [evaluatePolynomial_cons, toPoly, ih]

end Akima
