import Mathlib.Algebra.Order.Field.Basic
import Mathlib.Algebra.Order.Group.Abs
import Mathlib.Analysis.SpecialFunctions.Pow.Real
import Mathlib.Order.Monotone.Basic

/-!
# AutoBacklight — the brightness as it is perceived

How a brightness is set by hand and read back in `src/js/dbusServices/sensorDaemon/autoBacklightBrightness.js`,
over an ordered field. A quotient by zero and a power of a negative number are no numbers.

* **`curve_curve`** — what is converted to the scale that is relative to the ambient level and back is
  what it was, on both sides of the ambient level and at it.
* **`setManually_percent`** — the headline: what is set by hand is read back, from the floor of the
  slider on.
-/

namespace AutoBacklightPerceived

variable {K : Type*} [Field K] [LinearOrder K]

def linearMap (value lowIn highIn lowOut highOut : K) : Option K :=
  if highIn - lowIn = 0 then none
  else some (lowOut + (highOut - lowOut) * (value - lowIn) / (highIn - lowIn))

/-- `Math.pow` with an exponent that is no integer, which is `x ↦ f x` where it is a number. -/
def power (f : K → K) (x : K) : Option K := if 0 ≤ x then some (f x) else none

structure Brightness (K : Type*) [Field K] [LinearOrder K] where
  minPerceived : K
  maxPerceived : K
  min_lt_max : minPerceived < maxPerceived
  autoPerceived : Option K
  dimFactor : K
  userDeltaPerceived : K
  targetPerceivedNoOverrides : K
  targetPerceived : K

namespace Brightness

def curveDelta (f : K → K) (delta width : K) : Option K := do
  let normalizedDelta ← linearMap delta 0 width 0 1
  let curved ← power f normalizedDelta
  linearMap curved 0 1 0 width

/-- A brightness, with its distance from the ambient level put through `f`. -/
def curve (f : K → K) (s : Brightness K) (perceived : K) : Option K :=
  match s.autoPerceived with
  | none => some perceived
  | some autoPerceived =>
    let delta := perceived - autoPerceived
    if delta > 0 then do
      return autoPerceived + (← curveDelta f delta (s.maxPerceived - autoPerceived))
    else if delta < 0 then do
      return autoPerceived - (← curveDelta f |delta| (autoPerceived - s.minPerceived))
    else some autoPerceived

variable (up down : K → K)

variable (s : Brightness K)

def absPerceivedToRelPerceived (perceived : K) : Option K :=
  s.curve up perceived

def relPerceivedToAbsPerceived (relPerceived : K) : Option K :=
  s.curve down relPerceived

def setBrightnessPerceived (target : K) : Option (Brightness K) := do
  let s := { s with targetPerceivedNoOverrides := target }
  let target := s.minPerceived + (target - s.minPerceived) * s.dimFactor
  let target := max (min (target + s.userDeltaPerceived) s.maxPerceived) s.minPerceived
  let target ← s.absPerceivedToRelPerceived up target
  return { s with targetPerceived := target }

def manualFloor : K := 8 / 100

def setManually (perceivedBrightnessPercent : K) : Option (Brightness K) := do
  let perceivedBrightnessPercent := max perceivedBrightnessPercent manualFloor
  let targetPerceived ← linearMap perceivedBrightnessPercent 0 1 s.minPerceived s.maxPerceived
  let curPerceived := s.targetPerceivedNoOverrides
  let deltaPerceived := targetPerceived - curPerceived
  let s := { s with userDeltaPerceived := deltaPerceived }
  s.setBrightnessPerceived up s.targetPerceivedNoOverrides

def getPerceivedBrightness : Option K :=
  s.relPerceivedToAbsPerceived down s.targetPerceived

def getPerceivedBrightnessPercent : Option K := do
  let mapped ← linearMap (← s.getPerceivedBrightness down) s.minPerceived s.maxPerceived 0 1
  return min (max mapped 0) 1

end Brightness

structure InversePowers (up down : K → K) : Prop where
  up_zero : up 0 = 0
  up_one : up 1 = 1
  up_strictMono : StrictMonoOn up (Set.Ici 0)
  down_strictMono : StrictMonoOn down (Set.Ici 0)
  down_up : ∀ x, 0 ≤ x → down (up x) = x
  up_down : ∀ x, 0 ≤ x → up (down x) = x

/-! ## Converting and back -/

theorem linearMap_of_ne {value lowIn highIn lowOut highOut : K} (h : highIn ≠ lowIn) :
    linearMap value lowIn highIn lowOut highOut =
      some (lowOut + (highOut - lowOut) * (value - lowIn) / (highIn - lowIn)) :=
  if_neg (sub_ne_zero.mpr h)

theorem power_of_nonneg {f : K → K} {x : K} (h : 0 ≤ x) : power f x = some (f x) := if_pos h

variable [IsStrictOrderedRing K] {up down : K → K}

namespace Brightness

theorem curveDelta_eq {f : K → K} {delta width : K} (hdelta : 0 ≤ delta) (hwidth : 0 < width) :
    curveDelta f delta width = some (width * f (delta / width)) := by
  have hnormalized : linearMap delta 0 width 0 1 = some (delta / width) := by
    rw [linearMap_of_ne hwidth.ne']
    simp
  rw [curveDelta, hnormalized]
  show (power f (delta / width)).bind _ = _
  rw [power_of_nonneg (div_nonneg hdelta hwidth.le)]
  show linearMap (f (delta / width)) 0 1 0 width = _
  rw [linearMap_of_ne one_ne_zero]
  simp

theorem curveDelta_curveDelta (hpow : InversePowers up down) {delta width : K} (hdelta : 0 < delta)
    (hwidth : 0 < width) : ∃ curved, curveDelta up delta width = some curved ∧ 0 < curved ∧
      curveDelta down curved width = some delta := by
  have hquotient : 0 < delta / width := div_pos hdelta hwidth
  have hpos : 0 < up (delta / width) := by
    have hlt := hpow.up_strictMono (Set.mem_Ici.mpr le_rfl) (Set.mem_Ici.mpr hquotient.le) hquotient
    rwa [hpow.up_zero] at hlt
  have hcurved : 0 < width * up (delta / width) := mul_pos hwidth hpos
  refine ⟨_, curveDelta_eq hdelta.le hwidth, hcurved, ?_⟩
  rw [curveDelta_eq hcurved.le hwidth, mul_div_cancel_left₀ _ hwidth.ne', hpow.down_up _ hquotient.le,
    mul_div_cancel₀ _ hwidth.ne']

/-- **Converting and back.** On each side of the ambient level the range has a width, since the
brightness is in the range. -/
theorem curve_curve (hpow : InversePowers up down) (s : Brightness K) {perceived : K}
    (hmin : s.minPerceived ≤ perceived) (hmax : perceived ≤ s.maxPerceived) :
    ∃ relPerceived, s.absPerceivedToRelPerceived up perceived = some relPerceived ∧
      s.relPerceivedToAbsPerceived down relPerceived = some perceived := by
  unfold absPerceivedToRelPerceived relPerceivedToAbsPerceived curve
  cases s.autoPerceived with
  | none => exact ⟨perceived, rfl, rfl⟩
  | some autoPerceived =>
    dsimp only
    rcases lt_trichotomy autoPerceived perceived with hlt | heq | hgt
    · obtain ⟨curved, hcurved, hpos, hback⟩ := curveDelta_curveDelta hpow (sub_pos.mpr hlt)
        (sub_pos.mpr (hlt.trans_le hmax))
      refine ⟨autoPerceived + curved, ?_, ?_⟩
      · rw [if_pos (sub_pos.mpr hlt), hcurved]
        rfl
      · rw [add_sub_cancel_left, if_pos hpos, hback]
        show some (autoPerceived + (perceived - autoPerceived)) = _
        rw [add_sub_cancel]
    · refine ⟨autoPerceived, ?_, ?_⟩
      · rw [heq, sub_self, if_neg (lt_irrefl _), if_neg (lt_irrefl _)]
      · rw [sub_self, if_neg (lt_irrefl _), if_neg (lt_irrefl _), heq]
    · have hdelta : perceived - autoPerceived < 0 := sub_neg.mpr hgt
      have habs : |perceived - autoPerceived| = autoPerceived - perceived := by
        rw [abs_of_neg hdelta, neg_sub]
      obtain ⟨curved, hcurved, hpos, hback⟩ := curveDelta_curveDelta hpow (sub_pos.mpr hgt)
        (sub_pos.mpr (hmin.trans_lt hgt))
      refine ⟨autoPerceived - curved, ?_, ?_⟩
      · rw [if_neg (not_lt.mpr hdelta.le), if_pos hdelta, habs, hcurved]
        rfl
      · have hneg : autoPerceived - curved - autoPerceived = -curved := by ring
        rw [hneg, if_neg (not_lt.mpr (neg_nonpos.mpr hpos.le)), if_pos (neg_lt_zero.mpr hpos),
          abs_neg, abs_of_pos hpos, hback]
        show some (autoPerceived - (autoPerceived - perceived)) = _
        rw [sub_sub_cancel]

/-! ## The slider -/

theorem share_mem (s : Brightness K) {p : K} (hzero : 0 ≤ p) (hone : p ≤ 1) :
    s.minPerceived ≤ s.minPerceived + (s.maxPerceived - s.minPerceived) * p ∧
      s.minPerceived + (s.maxPerceived - s.minPerceived) * p ≤ s.maxPerceived := by
  have hwidth : 0 < s.maxPerceived - s.minPerceived := sub_pos.mpr s.min_lt_max
  constructor
  · exact le_add_of_nonneg_right (mul_nonneg hwidth.le hzero)
  · have hle : (s.maxPerceived - s.minPerceived) * p ≤ (s.maxPerceived - s.minPerceived) * 1 :=
      mul_le_mul_of_nonneg_left hone hwidth.le
    rw [mul_one] at hle
    exact le_sub_iff_add_le'.mp hle

theorem manualFloor_mem {p : K} (hp : p ≤ 1) : 0 < max p manualFloor ∧ max p manualFloor ≤ 1 := by
  have hfloor : (0 : K) < manualFloor ∧ (manualFloor : K) ≤ 1 := by
    unfold manualFloor
    constructor <;> norm_num
  exact ⟨lt_max_of_lt_right hfloor.1, max_le hp hfloor.2⟩

theorem setManually_eq (s : Brightness K) (hdim : s.dimFactor = 1) {p : K} (hp : p ≤ 1) :
    s.setManually up p = (s.absPerceivedToRelPerceived up
      (s.minPerceived + (s.maxPerceived - s.minPerceived) * max p manualFloor)).map fun target =>
        { s with
          userDeltaPerceived := s.minPerceived +
            (s.maxPerceived - s.minPerceived) * max p manualFloor - s.targetPerceivedNoOverrides
          targetPerceived := target } := by
  obtain ⟨hpos, hone⟩ := manualFloor_mem hp
  obtain ⟨hlow, hhigh⟩ := s.share_mem hpos.le hone
  have htarget : linearMap (max p manualFloor) 0 1 s.minPerceived s.maxPerceived =
      some (s.minPerceived + (s.maxPerceived - s.minPerceived) * max p manualFloor) := by
    rw [linearMap_of_ne one_ne_zero]
    simp
  rw [setManually, htarget]
  show setBrightnessPerceived up _ s.targetPerceivedNoOverrides = _
  generalize s.minPerceived + (s.maxPerceived - s.minPerceived) * max p manualFloor = share at *
  -- the target without overrides cancels out, and the share is in the range
  have hsum : s.minPerceived + (s.targetPerceivedNoOverrides - s.minPerceived) * s.dimFactor +
      (share - s.targetPerceivedNoOverrides) = share := by
    rw [hdim]
    ring
  unfold setBrightnessPerceived
  dsimp only
  rw [hsum, min_eq_left hhigh, max_eq_left hlow]
  show (s.absPerceivedToRelPerceived up share).bind _ = _
  cases s.absPerceivedToRelPerceived up share <;> rfl

/-- **What is set by hand is read back.** -/
theorem setManually_percent (hpow : InversePowers up down) (s : Brightness K)
    (hdim : s.dimFactor = 1) {p : K} (hp : p ≤ 1) : ∃ s', s.setManually up p = some s' ∧
      s'.getPerceivedBrightnessPercent down = some (max p manualFloor) := by
  obtain ⟨hpos, hone⟩ := manualFloor_mem hp
  obtain ⟨hlow, hhigh⟩ := s.share_mem hpos.le hone
  obtain ⟨target, htarget, hback⟩ := curve_curve hpow s hlow hhigh
  rw [setManually_eq s hdim hp, htarget]
  refine ⟨_, rfl, ?_⟩
  have hread : getPerceivedBrightness down { s with
      userDeltaPerceived := s.minPerceived +
        (s.maxPerceived - s.minPerceived) * max p manualFloor - s.targetPerceivedNoOverrides
      targetPerceived := target } =
        some (s.minPerceived + (s.maxPerceived - s.minPerceived) * max p manualFloor) := hback
  rw [getPerceivedBrightnessPercent, hread]
  have hmapped : linearMap (s.minPerceived + (s.maxPerceived - s.minPerceived) * max p manualFloor)
      s.minPerceived s.maxPerceived 0 1 = some (max p manualFloor) := by
    rw [linearMap_of_ne s.min_lt_max.ne', add_sub_cancel_left, zero_add, sub_zero, one_mul,
      mul_div_cancel_left₀ _ (sub_ne_zero.mpr s.min_lt_max.ne')]
  show (linearMap _ s.minPerceived s.maxPerceived 0 1).bind _ = _
  rw [hmapped]
  show some (min (max (max p manualFloor) 0) 1) = _
  rw [max_eq_left hpos.le, min_eq_left hone]

end Brightness

theorem inversePowers_rpow :
    InversePowers (fun x : ℝ => x ^ (1.5 : ℝ)) (fun x : ℝ => x ^ (1 / 1.5 : ℝ)) where
  up_zero := Real.zero_rpow (by norm_num)
  up_one := Real.one_rpow _
  up_strictMono := Real.strictMonoOn_rpow_Ici_of_exponent_pos (by norm_num)
  down_strictMono := Real.strictMonoOn_rpow_Ici_of_exponent_pos (by norm_num)
  down_up x hx := by
    rw [← Real.rpow_mul hx]
    norm_num
  up_down x hx := by
    rw [← Real.rpow_mul hx]
    norm_num

def indoors : Brightness ℝ where
  minPerceived := 3
  maxPerceived := 10
  min_lt_max := by norm_num
  autoPerceived := some 5
  dimFactor := 1
  userDeltaPerceived := 0
  targetPerceivedNoOverrides := 5
  targetPerceived := 5

theorem setManually_percent_indoors : ∃ s',
    indoors.setManually (fun x => x ^ (1.5 : ℝ)) (1 / 2) = some s' ∧
      s'.getPerceivedBrightnessPercent (fun x => x ^ (1 / 1.5 : ℝ)) =
        some (max (1 / 2) Brightness.manualFloor) :=
  Brightness.setManually_percent inversePowers_rpow indoors rfl (by norm_num)

end AutoBacklightPerceived
