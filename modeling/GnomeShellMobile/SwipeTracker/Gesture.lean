import Mathlib.Algebra.Order.Field.Rat
import Mathlib.Data.List.MinMax
import Mathlib.Data.Rat.Floor
import Mathlib.Tactic.Linarith

/-!
# SwipeTracker — a gesture and where it ends

`SwipeTracker` of `src/js/ui/swipeTracker.js` over rational numbers, from the confirmation of a swipe to
the signal that ends it. What Clutter says of a gesture comes with its events, and a distance is not
zero. An index is `-1` where nothing is found, and a read outside of the array gives nothing.

* **`findPreviousPoint_spec`**, **`findNextPoint_spec`**, **`findClosestPoint_spec`** — what the points
  that are found stand for.
-/

namespace SwipeTracker

/-! ## The points -/

def findIndex (p : ℚ → Bool) (points : List ℚ) : ℤ :=
  match points.findIdx? p with
  | some i => i
  | none => -1

def findLastIndex (p : ℚ → Bool) (points : List ℚ) : ℤ :=
  match points.reverse.findIdx? p with
  | some i => points.length - 1 - i
  | none => -1

def clamp (x lower upper : ℚ) : ℚ := min (max x lower) upper

structure Tracker where
  vertical : Bool
  allowLongSwipes : Bool
  distance : ℚ
  snapPoints : List ℚ
  initialProgress : ℚ
  progress : ℚ
  cancelProgress : ℚ
  peekedMinSnapPoint : ℤ
  peekedMaxSnapPoint : ℤ
deriving DecidableEq

namespace Tracker

variable (t : Tracker)

def snapPoint (i : ℤ) : Option ℚ := if 0 ≤ i then t.snapPoints[i.toNat]? else none

def findClosestPoint (pos : ℚ) : ℤ :=
  let distances := t.snapPoints.map fun x => |x - pos|
  match distances.min? with
  | some m => findIndex (· == m) distances
  | none => -1

def findNextPoint (pos : ℚ) : ℤ := findIndex (· ≥ pos) t.snapPoints

def findPreviousPoint (pos : ℚ) : ℤ := max 0 (findLastIndex (· ≤ pos) t.snapPoints)

def findPointForProjection (pos velocity : ℚ) : ℤ :=
  let initial := t.findClosestPoint t.initialProgress
  let prev := t.findPreviousPoint pos
  let next := t.findNextPoint pos
  if (if velocity > 0 then prev else next) = initial then if velocity > 0 then next else prev
  else t.findClosestPoint pos

/-! ## A swipe -/

/-- `confirmSwipe`. An animation towards zero is taken for none. -/
def confirmSwipe (distance : ℚ) (snapPoints : List ℚ)
    (currentProgress cancelProgress : ℚ) (animatingTowardsProgress : Option ℚ) : Tracker :=
  let t : Tracker := { t with
    distance := distance
    snapPoints := snapPoints
    initialProgress := currentProgress
    progress := currentProgress
    cancelProgress := cancelProgress }
  let t : Tracker := { t with
    peekedMinSnapPoint := t.findPreviousPoint t.progress
    peekedMaxSnapPoint := t.findNextPoint t.progress }
  let animating : Bool := animatingTowardsProgress.any (· ≠ 0)
  { t with
    peekedMinSnapPoint :=
      if animating ∧ t.peekedMinSnapPoint > 0 ∧
          animatingTowardsProgress = t.snapPoint t.peekedMinSnapPoint then
        t.peekedMinSnapPoint - 1
      else t.peekedMinSnapPoint
    peekedMaxSnapPoint :=
      if animating ∧ t.peekedMaxSnapPoint < (t.snapPoints.length : ℤ) - 1 ∧
          animatingTowardsProgress = t.snapPoint t.peekedMaxSnapPoint then
        t.peekedMaxSnapPoint + 1
      else t.peekedMaxSnapPoint }

def baseDistance (isTouchpad : Bool) : ℚ :=
  if isTouchpad then if t.vertical then 300 else 400 else t.distance

/-- `_updatePanGesture`, by what has been moved since the last event. -/
def updatePanGesture (delta : ℚ) (isTouchpad : Bool) : Option Tracker := do
  let progress := t.progress + delta / t.baseDistance isTouchpad
  let prevPoint := t.findPreviousPoint progress
  let nextPoint := t.findNextPoint progress
  let t : Tracker := { t with
    peekedMinSnapPoint :=
      if prevPoint < t.peekedMinSnapPoint then prevPoint else t.peekedMinSnapPoint
    peekedMaxSnapPoint :=
      if nextPoint > t.peekedMaxSnapPoint then nextPoint else t.peekedMaxSnapPoint }
  let progress := clamp progress (← t.snapPoint 0) (← t.snapPoint ((t.snapPoints.length : ℤ) - 1))
  return { t with progress := progress }

variable (velocity : ℚ)

def projection (isTouchpad : Bool) : ℚ :=
  let decel : ℚ := if isTouchpad then 997 / 1000 else 998 / 1000
  let slope := decel / (1 - decel) / 1000
  if |velocity| > 2 then
    let c := slope / 2 / (35 / 100)
    let x := |velocity| - 2 + c
    slope * 2 + 35 / 100 * x * x - 35 / 100 * c * c
  else |velocity| * slope

def sign : ℚ := if velocity > 0 then 1 else if velocity < 0 then -1 else 0

def getEndProgress (isTouchpad : Bool) : Option ℚ := do
  let threshold : ℚ := if isTouchpad then 6 / 10 else 3 / 10
  if |velocity| < threshold then
    t.snapPoint (t.findClosestPoint t.progress)
  else
    let pos := projection velocity isTouchpad * sign velocity + t.progress
    let boundsMin ←
      if t.allowLongSwipes then t.snapPoint 0 else t.snapPoint t.peekedMinSnapPoint
    let boundsMax ←
      if t.allowLongSwipes then t.snapPoint ((t.snapPoints.length : ℤ) - 1)
      else t.snapPoint t.peekedMaxSnapPoint
    let pos := clamp pos boundsMin boundsMax
    let index := t.findPointForProjection pos velocity
    t.snapPoint index

/-- The duration of `_getAnimateOutParams`. -/
def animateOutDuration (endProgress velocity : ℚ) (isTouchpad : Bool) : ℚ :=
  let velocity := velocity / t.baseDistance isTouchpad
  let velocity := if (endProgress - t.progress) * velocity ≤ 0 then 2 / 1000 else velocity
  let duration := |(t.progress - endProgress) / velocity * 3|
  if duration > 0 then clamp duration 100 400 else duration

def getAnimateOutParams (isTouchpad : Bool) : Option (ℚ × ℚ) := do
  let endProgress ← t.getEndProgress velocity isTouchpad
  return (t.animateOutDuration endProgress velocity isTouchpad, endProgress)

end Tracker

structure Other where
  tracker : Tracker
  recognizing : Bool
  ended : Option (ℚ × Bool)

/-- The parameters of the signals `end` that are emitted. -/
structure Ends where
  ours : Option (ℚ × ℚ)
  others : Option (ℚ × ℚ)
deriving DecidableEq

/-- `_endGesture`, without the pick-up of the next press. -/
def Tracker.endGesture (t : Tracker) (velocity : ℚ) (isTouchpad : Bool) (other : Option Other) :
    Option Ends :=
  match other with
  | none => do return ⟨some (← t.getAnimateOutParams velocity isTouchpad), none⟩
  | some o =>
    if o.recognizing then some ⟨none, none⟩
    else
      match o.ended with
      | none => do return ⟨some (← t.getAnimateOutParams velocity isTouchpad), none⟩
      | some (endVelocity, endIsTouchpad) => do
        -- the slower one of the two is taken for still
        let slower : Bool := |velocity| < |endVelocity|
        let (ourDuration, ourEndProgress) ←
          t.getAnimateOutParams (if slower then 0 else velocity) isTouchpad
        let (otherDuration, otherEndProgress) ←
          o.tracker.getAnimateOutParams (if slower then endVelocity else 0) endIsTouchpad
        let finalDuration := if ourDuration > otherDuration then ourDuration else otherDuration
        return ⟨some (finalDuration, ourEndProgress), some (finalDuration, otherEndProgress)⟩

/-! ## What the points that are found stand for -/

structure IsPrev (points : List ℚ) (pos v : ℚ) : Prop where
  mem : v ∈ points
  le : v ≤ pos
  last : ∀ u ∈ points, u ≤ pos → u ≤ v

structure IsNext (points : List ℚ) (pos v : ℚ) : Prop where
  mem : v ∈ points
  ge : pos ≤ v
  first : ∀ u ∈ points, pos ≤ u → v ≤ u

variable {points : List ℚ} {pos : ℚ}

theorem getElem?_le (hsorted : points.Pairwise (· ≤ ·)) {i j : ℕ} {u v : ℚ} (hi : points[i]? = some u)
    (hj : points[j]? = some v) (hij : i ≤ j) : u ≤ v := by
  obtain ⟨hilen, rfl⟩ := List.getElem?_eq_some_iff.mp hi
  obtain ⟨hjlen, rfl⟩ := List.getElem?_eq_some_iff.mp hj
  rcases Nat.lt_or_eq_of_le hij with hlt | rfl
  · exact List.pairwise_iff_getElem.mp hsorted i j hilen hjlen hlt
  · exact le_rfl

theorem findIndex_of_mem {p : ℚ → Bool} (h : ∃ v ∈ points, p v) :
    ∃ (i : ℕ) (v : ℚ), findIndex p points = i ∧ points[i]? = some v ∧ p v ∧
      ∀ (j : ℕ) u, points[j]? = some u → p u → i ≤ j := by
  cases hfind : points.findIdx? p with
  | none =>
    obtain ⟨v, hv, hp⟩ := h
    exact absurd hp (List.findIdx?_eq_none_iff.mp hfind v hv ▸ Bool.false_ne_true)
  | some i =>
    obtain ⟨hlen, hp, hbefore⟩ := List.findIdx?_eq_some_iff_getElem.mp hfind
    refine ⟨i, points[i], by rw [findIndex, hfind], List.getElem?_eq_getElem hlen, hp, ?_⟩
    intro j u hj hu
    by_contra hlt
    obtain ⟨hjlen, rfl⟩ := List.getElem?_eq_some_iff.mp hj
    exact hbefore j (not_le.mp hlt) hu

theorem findLastIndex_of_mem {p : ℚ → Bool} (h : ∃ v ∈ points, p v) :
    ∃ (i : ℕ) (v : ℚ), findLastIndex p points = i ∧ points[i]? = some v ∧ p v ∧
      ∀ (j : ℕ) u, points[j]? = some u → p u → j ≤ i := by
  cases hfind : points.reverse.findIdx? p with
  | none =>
    obtain ⟨v, hv, hp⟩ := h
    exact absurd hp
      (List.findIdx?_eq_none_iff.mp hfind v (List.mem_reverse.mpr hv) ▸ Bool.false_ne_true)
  | some k =>
    obtain ⟨hlen, hp, hbefore⟩ := List.findIdx?_eq_some_iff_getElem.mp hfind
    have hk : k < points.length := by rwa [List.length_reverse] at hlen
    rw [List.getElem_reverse] at hp
    refine ⟨points.length - 1 - k, points[points.length - 1 - k], ?_,
      List.getElem?_eq_getElem (by omega), hp, ?_⟩
    · rw [findLastIndex, hfind]
      dsimp only
      omega
    · intro j u hj hu
      by_contra hlt
      obtain ⟨hjlen, rfl⟩ := List.getElem?_eq_some_iff.mp hj
      -- counted from the other end it comes before the one that is found
      refine hbefore (points.length - 1 - j) (by omega) ?_
      rw [List.getElem_reverse]
      have hback : points.length - 1 - (points.length - 1 - j) = j := by omega
      simp only [hback]
      exact hu

theorem findLastIndex_of_not_mem {p : ℚ → Bool} (h : ∀ v ∈ points, ¬p v) :
    findLastIndex p points = -1 := by
  have hfind : points.reverse.findIdx? p = none := by
    rw [List.findIdx?_eq_none_iff]
    intro v hv
    exact Bool.eq_false_iff.mpr (h v (List.mem_reverse.mp hv))
  rw [findLastIndex, hfind]

theorem findIndex_of_not_mem {p : ℚ → Bool} (h : ∀ v ∈ points, ¬p v) : findIndex p points = -1 := by
  have hfind : points.findIdx? p = none := by
    rw [List.findIdx?_eq_none_iff]
    intro v hv
    exact Bool.eq_false_iff.mpr (h v hv)
  rw [findIndex, hfind]

namespace Tracker

variable {t : Tracker}

theorem snapPoint_natCast (t : Tracker) (i : ℕ) : t.snapPoint i = t.snapPoints[i]? := by
  rw [snapPoint, if_pos (Int.natCast_nonneg i), Int.toNat_natCast]

/-- **The next point** of a position that is not after the last one. -/
theorem findNextPoint_spec (hsorted : t.snapPoints.Pairwise (· ≤ ·)) (h : ∃ v ∈ t.snapPoints, pos ≤ v) :
    ∃ v, t.snapPoint (t.findNextPoint pos) = some v ∧ IsNext t.snapPoints pos v := by
  have hexists : ∃ v ∈ t.snapPoints, decide (v ≥ pos) := by
    obtain ⟨v, hv, hle⟩ := h
    exact ⟨v, hv, decide_eq_true hle⟩
  obtain ⟨i, v, hi, hv, hle, hfirst⟩ := findIndex_of_mem hexists
  refine ⟨v, ?_, List.mem_of_getElem? hv, of_decide_eq_true hle, ?_⟩
  · rw [findNextPoint, hi, snapPoint_natCast, hv]
  · intro u hu hpos
    obtain ⟨j, hj⟩ := List.mem_iff_getElem?.mp hu
    exact getElem?_le hsorted hv hj (hfirst j u hj (decide_eq_true hpos))

/-- **The previous point** of a position that is not before the first one. -/
theorem findPreviousPoint_spec (hsorted : t.snapPoints.Pairwise (· ≤ ·))
    (h : ∃ v ∈ t.snapPoints, v ≤ pos) :
    ∃ v, t.snapPoint (t.findPreviousPoint pos) = some v ∧ IsPrev t.snapPoints pos v := by
  have hexists : ∃ v ∈ t.snapPoints, decide (v ≤ pos) := by
    obtain ⟨v, hv, hle⟩ := h
    exact ⟨v, hv, decide_eq_true hle⟩
  obtain ⟨i, v, hi, hv, hle, hlast⟩ := findLastIndex_of_mem hexists
  refine ⟨v, ?_, List.mem_of_getElem? hv, of_decide_eq_true hle, ?_⟩
  · rw [findPreviousPoint, hi, max_eq_right (Int.natCast_nonneg i), snapPoint_natCast, hv]
  · intro u hu hpos
    obtain ⟨j, hj⟩ := List.mem_iff_getElem?.mp hu
    exact getElem?_le hsorted hj hv (hlast j u hj (decide_eq_true hpos))

/-- **The closest point.** -/
theorem findClosestPoint_spec (hne : t.snapPoints ≠ []) (pos : ℚ) :
    ∃ v, t.snapPoint (t.findClosestPoint pos) = some v ∧ v ∈ t.snapPoints ∧
      ∀ u ∈ t.snapPoints, |v - pos| ≤ |u - pos| := by
  have hnonempty : t.snapPoints.map (fun x => |x - pos|) ≠ [] := fun h => hne (List.map_eq_nil_iff.mp h)
  obtain ⟨m, hm⟩ : ∃ m, (t.snapPoints.map fun x => |x - pos|).min? = some m :=
    Option.isSome_iff_exists.mp (List.isSome_min?_iff.mpr hnonempty)
  obtain ⟨hmem, hleast⟩ := List.min?_eq_some_iff.mp hm
  obtain ⟨i, d, hi, hd, heq, -⟩ := findIndex_of_mem (p := (· == m)) ⟨m, hmem, beq_self_eq_true m⟩
  rw [List.getElem?_map] at hd
  obtain ⟨v, hv, rfl⟩ := Option.map_eq_some_iff.mp hd
  refine ⟨v, ?_, List.mem_of_getElem? hv, ?_⟩
  · rw [findClosestPoint, hm]
    show t.snapPoint (findIndex (· == m) _) = _
    rw [hi, snapPoint_natCast, hv]
  · intro u hu
    rw [eq_of_beq heq]
    exact hleast _ (List.mem_map_of_mem hu)

end Tracker

end SwipeTracker
