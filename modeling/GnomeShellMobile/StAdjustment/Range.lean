import Mathlib.Algebra.Order.Group.MinMax
import Mathlib.Tactic.Linarith
import GnomeShellMobile.Runs.Basic
import GnomeShellMobile.StAdjustment.Adjustment

/-!
# StAdjustment — the value stays within its range

The range of the value is from `lower` to `upper - pageSize`, and only `lower` if the page does not
fit. `set_value` clamps to that range. `clamp_page` clamps to what lies between `lower` and
`upper - pageSize` in either order, so where the page does not fit it lets a value below `lower`
pass.

* **`clampPage_range`**: `clamp_page` as the setters call it.
* **`Meets`**: the calls after which the value is in its range, and notified if and only if it changed.
* **`right_run_iff`**: the runs in which every call leaves it so.
-/

namespace StAdjustment

namespace Adjustment

variable {a : Adjustment} {v : ℚ}

/-- The value lies between `lower` and the greater of `lower` and `upper - pageSize`. -/
structure InRange (a : Adjustment) : Prop where
  lower_le : a.lower ≤ a.value
  le_upper : a.value ≤ max a.lower (a.upper - a.pageSize)

def Fits (a : Adjustment) : Prop := a.pageSize ≤ a.upper - a.lower
deriving Decidable

/-- The value `v` is between `lower` and `upper - pageSize`, whichever is less. -/
def Lies (lower upper pageSize v : ℚ) : Prop :=
  min lower (upper - pageSize) ≤ v ∧ v ≤ max lower (upper - pageSize)
deriving Decidable

def Between (a : Adjustment) : Prop := Lies a.lower a.upper a.pageSize a.value
deriving Decidable

theorem InRange.fits_or_eq (h : a.InRange) :
    a.Fits ∧ a.value ≤ a.upper - a.pageSize ∨ ¬ a.Fits ∧ a.value = a.lower := by
  have hle := h.le_upper
  by_cases hfits : a.Fits
  · left
    have hfits' : a.lower ≤ a.upper - a.pageSize := by
      rw [Fits] at hfits
      linarith
    rw [max_eq_right hfits'] at hle
    exact ⟨hfits, hle⟩
  · right
    have hfits' : a.upper - a.pageSize ≤ a.lower := by
      rw [Fits, not_le] at hfits
      linarith
    rw [max_eq_left hfits'] at hle
    exact ⟨hfits, le_antisymm hle h.lower_le⟩

theorem InRange.between (h : a.InRange) : a.Between :=
  ⟨(min_le_left _ _).trans h.lower_le, h.le_upper⟩

/-! ## The two ways of clamping -/

theorem clamp_eq_max_min {x low high : ℚ} (h : low ≤ high) : clamp x low high = max low (min x high) := by
  rw [clamp]
  split
  · next hhigh => rw [min_eq_right hhigh.le, max_eq_right h]
  · next hhigh =>
    rw [min_eq_left (not_lt.mp hhigh)]
    split
    · next hlow => rw [max_eq_left hlow.le]
    · next hlow => rw [max_eq_right (not_lt.mp hlow)]

theorem clamp_mem {x low high : ℚ} (h : low ≤ high) : low ≤ clamp x low high ∧ clamp x low high ≤ high := by
  rw [clamp_eq_max_min h]
  exact ⟨le_max_left _ _, max_le h (min_le_right _ _)⟩

theorem clamp_of_mem {x low high : ℚ} (hlow : low ≤ x) (hhigh : x ≤ high) : clamp x low high = x := by
  rw [clamp, if_neg (not_lt.mpr hhigh), if_neg (not_lt.mpr hlow)]

def target (a : Adjustment) (value : ℚ) : ℚ :=
  clamp value a.lower (max a.lower (a.upper - a.pageSize))

theorem target_mem (a : Adjustment) (value : ℚ) :
    a.lower ≤ a.target value ∧ a.target value ≤ max a.lower (a.upper - a.pageSize) :=
  clamp_mem (le_max_left _ _)

theorem InRange.target_value (h : a.InRange) : a.target a.value = a.value :=
  clamp_of_mem h.lower_le h.le_upper

theorem setValue_value_iff : a.setValue a.value = a ↔ a.InRange := by
  constructor
  · intro h
    have hvalue : (a.setValue a.value).value = a.target a.value := by
      rw [setValue, ← target]
      split
      · rfl
      · next heq => exact not_not.mp heq
    rw [h] at hvalue
    have hmem := a.target_mem a.value
    rw [← hvalue] at hmem
    exact ⟨hmem.1, hmem.2⟩
  · intro h
    rw [setValue, ← target, h.target_value]
    simp

variable (a)

/-- The lower bound of the value in `clamp_page`. -/
def pageLower (lower : ℚ) : ℚ := clamp lower a.lower (a.upper - a.pageSize)

/-- The upper bound of the value in `clamp_page`. -/
def pageUpper (upper : ℚ) : ℚ :=
  clamp upper (a.lower + a.pageSize) a.upper - a.pageSize

/-- `clamp_page` leaves a value that is within both bounds. Of two bounds that have come to the other
side of each other it is the lower one that the value gets. -/
theorem clampPage_eq (lower upper : ℚ) : a.clampPage lower upper =
      if a.pageLower lower ≤ a.value ∧ a.value ≤ a.pageUpper upper then a
      else a.assignValue (max (a.pageLower lower) (min a.value (a.pageUpper upper))) := by
  have habove : clamp upper (a.lower + a.pageSize) a.upper < a.value + a.pageSize ↔
      a.pageUpper upper < a.value := by
    rw [pageUpper, sub_lt_iff_lt_add]
  rw [clampPage, ← pageLower, ← pageUpper]
  by_cases h : a.pageUpper upper < a.value
  · have hout : ¬ (a.pageLower lower ≤ a.value ∧ a.value ≤ a.pageUpper upper) := fun hin =>
      absurd hin.2 (not_le.mpr h)
    rw [if_neg hout, min_eq_right h.le]
    by_cases hbelow : a.pageUpper upper < a.pageLower lower
    · rw [max_eq_left hbelow.le]
      simp [habove, h, hbelow]
    · rw [max_eq_right (not_lt.mp hbelow)]
      simp [habove, h, hbelow]
  · by_cases hbelow : a.value < a.pageLower lower
    · have hout : ¬ (a.pageLower lower ≤ a.value ∧ a.value ≤ a.pageUpper upper) := fun hin =>
        absurd hin.1 (not_le.mpr hbelow)
      rw [if_neg hout, min_eq_left (not_lt.mp h), max_eq_left hbelow.le]
      simp [habove, h, hbelow]
    · have hin : a.pageLower lower ≤ a.value ∧ a.value ≤ a.pageUpper upper :=
        ⟨not_lt.mp hbelow, not_lt.mp h⟩
      rw [if_pos hin]
      simp [habove, h, hbelow]

theorem pageLower_lower : a.pageLower a.lower = min a.lower (a.upper - a.pageSize) := by
  rw [pageLower, clamp]
  split
  · next h => rw [min_eq_right h.le]
  · next h => rw [if_neg (lt_irrefl _), min_eq_left (not_lt.mp h)]

theorem pageUpper_upper : a.pageUpper a.upper = max a.lower (a.upper - a.pageSize) := by
  rw [pageUpper, clamp, if_neg (lt_irrefl _)]
  split
  · next h => rw [max_eq_left (by linarith), add_sub_cancel_right]
  · next h => rw [max_eq_right (by linarith)]

/-- **`clamp_page` as the setters call it**: the value is moved between `lower` and
`upper - pageSize`, and is notified if it was not there. -/
theorem clampPage_range : a.clampPage a.lower a.upper =
      if a.Between then a
      else a.assignValue
        (max (min a.lower (a.upper - a.pageSize))
          (min a.value (max a.lower (a.upper - a.pageSize)))) := by
  rw [clampPage_eq, pageLower_lower, pageUpper_upper]
  rfl

variable {a}

/-! ## One call -/

@[simp] theorem clampPage_bounds (a : Adjustment) (lower upper : ℚ) :
    (a.clampPage lower upper).lower = a.lower ∧ (a.clampPage lower upper).upper = a.upper ∧
      (a.clampPage lower upper).pageSize = a.pageSize := by
  rw [clampPage_eq]
  split <;> exact ⟨rfl, rfl, rfl⟩

def settle (a : Adjustment) : Adjustment := a.clampPage a.lower a.upper

theorem max_min_eq_iff {low high v : ℚ} :
    max low (min v high) = v ↔ low ≤ v ∧ v ≤ high ∨ high < v ∧ low = v := by
  rcases le_or_gt v high with hle | hlt
  · rw [min_eq_left hle, max_eq_right_iff]
    exact ⟨fun h => .inl ⟨h, hle⟩, fun h => h.elim And.left fun h => h.2.le⟩
  · rw [min_eq_right hlt.le]
    constructor
    · intro h
      rcases max_choice low high with hlow | hhigh
      · exact .inr ⟨hlt, hlow ▸ h⟩
      · exact absurd (hhigh.symm.trans h) hlt.ne
    · rintro (⟨-, h⟩ | ⟨-, h⟩)
      · exact absurd h (not_le.mpr hlt)
      · rw [h, max_eq_left hlt.le]

theorem max_min_ne {low high v : ℚ} (h : low ≤ high) (hout : ¬ (low ≤ v ∧ v ≤ high)) :
    max low (min v high) ≠ v := by
  rw [Ne, max_min_eq_iff, or_iff_right hout]
  rintro ⟨hlt, rfl⟩
  exact absurd h (not_le.mpr hlt)

theorem inRange_settle (a : Adjustment) : a.settle.InRange ↔ a.Fits ∨ a.lower ≤ a.value := by
  have hfits : a.Fits ↔ a.lower ≤ a.upper - a.pageSize := by
    rw [Fits]
    constructor <;> intro h <;> linarith
  rw [settle, clampPage_range]
  by_cases hbetween : a.Between
  · rw [if_pos hbetween]
    constructor
    · exact fun h => .inr h.lower_le
    · rintro (h | h)
      · exact ⟨(min_eq_left (hfits.mp h)) ▸ hbetween.1, hbetween.2⟩
      · exact ⟨h, hbetween.2⟩
  · rw [if_neg hbetween]
    have hle : max (min a.lower (a.upper - a.pageSize))
        (min a.value (max a.lower (a.upper - a.pageSize))) ≤ max a.lower (a.upper - a.pageSize) :=
      max_le (min_le_max) (min_le_right _ _)
    constructor
    · intro h
      rcases le_or_gt a.lower (a.upper - a.pageSize) with hfit | hnot
      · exact .inl (hfits.mpr hfit)
      · -- the page does not fit: the value came from above
        have hlower : a.lower ≤ max (min a.lower (a.upper - a.pageSize))
            (min a.value (max a.lower (a.upper - a.pageSize))) := h.lower_le
        rw [min_eq_right hnot.le, max_eq_left hnot.le] at hlower
        rcases le_max_iff.mp hlower with hle | hv
        · exact absurd hle (not_le.mpr hnot)
        · exact .inr (le_min_iff.mp hv).1
    · rintro h
      refine ⟨?_, hle⟩
      show a.lower ≤ max (min a.lower (a.upper - a.pageSize))
        (min a.value (max a.lower (a.upper - a.pageSize)))
      rcases h with h | h
      · rw [min_eq_left (hfits.mp h)]
        exact le_max_left _ _
      · exact le_max_of_le_right (le_min h (le_max_left _ _))

/-! ### Whether the value is notified -/

def Quiet (v : ℚ) (a : Adjustment) : Prop := a.value = v ∧ .value ∉ a.notified

def Loud (a : Adjustment) : Prop := .value ∈ a.notified

theorem Quiet.not_loud (h : a.Quiet v) : ¬ a.Loud := h.2

theorem loud_assignValue (v : ℚ) : (a.assignValue v).Loud := by simp [Loud, assignValue, notify]

section

variable (h : a.Loud)
include h

theorem Loud.clampPage (lower upper : ℚ) : (a.clampPage lower upper).Loud := by
  rw [clampPage_eq]
  split
  · exact h
  · exact loud_assignValue _

theorem Loud.notify (p : Property) : (a.notify p).Loud := List.mem_append_left _ h

theorem Loud.changeBound {b : Adjustment} (hb : b.notified = a.notified) (p : Property)
    (differs : Prop) [Decidable differs] :
    (if differs then (b.notify p).clampPage b.lower b.upper else a).Loud := by
  split
  · have hloud : b.Loud := by
      rw [Loud, hb]
      exact h
    exact (hloud.notify p).clampPage _ _
  · exact h

theorem Loud.setUpper (upper : ℚ) : (a.setUpper upper).Loud :=
  h.changeBound (b := { a with upper := upper }) rfl .upper _

theorem Loud.setPageSize (size : ℚ) : (a.setPageSize size).Loud :=
  h.changeBound (b := { a with pageSize := size }) rfl .pageSize _

end

def setIncrements (a : Adjustment) (step page : ℚ) : Adjustment :=
  (a.setStepIncrement step).setPageIncrement page

theorem Loud.setIncrements (h : a.Loud) (step page : ℚ) : (a.setIncrements step page).Loud := by
  have hstep : (a.setStepIncrement step).Loud := by
    rw [setStepIncrement]
    split
    · exact Loud.notify (a := { a with stepIncrement := step }) h _
    · exact h
  rw [Adjustment.setIncrements, setPageIncrement]
  split
  · exact Loud.notify (a := { a.setStepIncrement step with pageIncrement := page }) hstep _
  · exact hstep

theorem Loud.setValue (h : a.Loud) (value : ℚ) : (a.setValue value).Loud := by
  rw [Adjustment.setValue]
  split
  · exact loud_assignValue _
  · exact h

section

variable (h : a.Quiet v)
include h

theorem Quiet.settle :
    (a.Between → a.settle.Quiet v ∧ a.settle.Between) ∧ (¬ a.Between → a.settle.Loud) := by
  rw [Adjustment.settle, clampPage_range]
  constructor
  · intro hbetween
    rw [if_pos hbetween]
    exact ⟨h, hbetween⟩
  · intro hout
    rw [if_neg hout]
    exact loud_assignValue _

theorem Quiet.notify {p : Property} (hp : p ≠ .value) : (a.notify p).Quiet v :=
  ⟨h.1, fun hmem => (List.mem_append.mp hmem).elim h.2 fun hp' => hp (List.mem_singleton.mp hp').symm⟩

theorem Quiet.changeBound (hbetween : a.Between) {b : Adjustment} (hb : b.Quiet v)
    {p : Property} (hp : p ≠ .value) {differs : Prop} [Decidable differs] (hsame : ¬ differs → b = a) :
    (Lies b.lower b.upper b.pageSize v →
        (if differs then (b.notify p).settle else a).Quiet v ∧
          (if differs then (b.notify p).settle else a).Between) ∧
      (¬ Lies b.lower b.upper b.pageSize v → (if differs then (b.notify p).settle else a).Loud) := by
  have hlies : (b.notify p).Between ↔ Lies b.lower b.upper b.pageSize v := by
    rw [← hb.1]
    rfl
  rw [← hlies]
  by_cases hdiffers : differs
  · rw [if_pos hdiffers]
    exact (hb.notify hp).settle
  · have hbetween' : (b.notify p).Between := by
      rw [hsame hdiffers]
      exact hbetween
    rw [if_neg hdiffers]
    exact ⟨fun _ => ⟨h, hbetween⟩, fun hout => absurd hbetween' hout⟩

theorem Quiet.setLower (hbetween : a.Between) (lower : ℚ) :
    (Lies lower a.upper a.pageSize v → (a.setLower lower).Quiet v ∧ (a.setLower lower).Between) ∧
      (¬ Lies lower a.upper a.pageSize v → (a.setLower lower).Loud) :=
  h.changeBound hbetween (b := { a with lower := lower }) h (p := .lower) (by decide)
    fun hsame => by rw [← not_not.mp hsame]

theorem Quiet.setUpper (hbetween : a.Between) (upper : ℚ) :
    (Lies a.lower upper a.pageSize v → (a.setUpper upper).Quiet v ∧ (a.setUpper upper).Between) ∧
      (¬ Lies a.lower upper a.pageSize v → (a.setUpper upper).Loud) :=
  h.changeBound hbetween (b := { a with upper := upper }) h (p := .upper) (by decide)
    fun hsame => by rw [← not_not.mp hsame]

theorem Quiet.setPageSize (hbetween : a.Between) (size : ℚ) :
    (Lies a.lower a.upper size v → (a.setPageSize size).Quiet v ∧ (a.setPageSize size).Between) ∧
      (¬ Lies a.lower a.upper size v → (a.setPageSize size).Loud) :=
  h.changeBound hbetween (b := { a with pageSize := size }) h (p := .pageSize) (by decide)
    fun hsame => by rw [← not_not.mp hsame]

end

/-! ## Every call -/

structure Right (a : Adjustment) (_ : Call) (a' : Adjustment) : Prop where
  inRange : a'.InRange
  setValue_value : a'.setValue a'.value = a'
  notified_iff : .value ∈ a'.notified ↔ a'.value ≠ a.value

/-- The value at which `set_values` ends. -/
def valuesTarget (value lower upper pageSize : ℚ) : ℚ :=
  clamp value lower (max lower (upper - pageSize))

variable (a)

/-- The calls that leave it so. A new lower bound must leave room for the page or be at most the
value. `clamp_page` must not bring the value back to where it was, and where the page does not fit
its upper bound must not be beyond `upper`. `set_values` must not bring it back either, unless the
value is never moved. -/
def Meets : Call → Prop
  | .setLower lower => a.pageSize ≤ a.upper - lower ∨ lower ≤ a.value
  | .setUpper _ | .setPageSize _ | .setValue _ => True
  | .setValues value lower upper stepIncrement pageIncrement pageSize =>
    0 ≤ pageSize ∧ 0 ≤ stepIncrement ∧ 0 ≤ pageIncrement →
      valuesTarget value lower upper pageSize ≠ a.value ∨
        Lies lower a.upper a.pageSize a.value ∧ Lies lower upper a.pageSize a.value ∧
          Lies lower upper pageSize a.value
  | .clampPage lower upper =>
    if a.Fits then
      ¬ (a.lower < a.value ∧ upper - a.pageSize < a.value ∧
        a.value = max a.lower (min lower (a.upper - a.pageSize)))
    else upper ≤ a.upper

instance (c : Call) : Decidable (a.Meets c) := by
  unfold Meets
  split <;> infer_instance

def fresh : Adjustment := { a with notified := [] }

theorem quiet_fresh : a.fresh.Quiet a.value := ⟨rfl, List.not_mem_nil⟩

variable {a}

theorem InRange.fresh (h : a.InRange) : a.fresh.InRange := ⟨h.lower_le, h.le_upper⟩

theorem right_iff {c : Call} {a' : Adjustment} :
    Right a c a' ↔ a'.InRange ∧ (a'.Loud ↔ a'.value ≠ a.value) := by
  constructor
  · exact fun h => ⟨h.inRange, h.notified_iff⟩
  · exact fun h => ⟨h.1, setValue_value_iff.mpr h.1, h.2⟩

theorem Quiet.loud_iff (h : a.Quiet v) : a.Loud ↔ a.value ≠ v := by
  constructor
  · exact fun hloud => absurd hloud h.not_loud
  · exact fun hne => absurd h.1 hne

theorem Quiet.settle_loud_iff (h : a.Quiet v) : a.settle.Loud ↔ a.settle.value ≠ v := by
  by_cases hbetween : a.Between
  · exact (h.settle.1 hbetween).1.loud_iff
  · have hloud : a.settle.Loud := h.settle.2 hbetween
    have hmoved : a.settle.value ≠ v := by
      rw [Adjustment.settle, clampPage_range, if_neg hbetween, ← h.1]
      exact max_min_ne min_le_max hbetween
    exact iff_of_true hloud hmoved

section

variable (h : a.InRange)
include h

theorem right_changeBound {b : Adjustment} (hb : b.Quiet a.value) {p : Property}
    (hp : p ≠ .value) {differs : Prop} [Decidable differs] (hsame : ¬ differs → b = a.fresh) (c : Call) :
    Right a c (if differs then (b.notify p).settle else a.fresh) ↔ b.Fits ∨ b.lower ≤ a.value := by
  rw [right_iff]
  split
  · have hvalue : (b.notify p).value = a.value := hb.1
    rw [and_iff_left (hb.notify hp).settle_loud_iff, inRange_settle, hvalue]
    rfl
  · next hdiffers =>
    rw [hsame hdiffers]
    exact iff_of_true ⟨h.fresh, a.quiet_fresh.loud_iff⟩ (.inr h.lower_le)

theorem right_setLower (lower : ℚ) :
    Right a (.setLower lower) (perform a (.setLower lower)) ↔ a.Meets (.setLower lower) := by
  refine right_changeBound h (b := { a.fresh with lower := lower }) a.quiet_fresh (p := .lower)
    (by decide) (fun hsame => ?_) _
  rw [← not_not.mp hsame]
  rfl

theorem right_setUpper (upper : ℚ) :
    Right a (.setUpper upper) (perform a (.setUpper upper)) := by
  -- the lower bound is what it was
  refine (right_changeBound h (b := { a.fresh with upper := upper }) a.quiet_fresh (p := .upper)
    (by decide) (fun hsame => ?_) _).mpr (.inr h.lower_le)
  rw [← not_not.mp hsame]
  rfl

theorem right_setPageSize (size : ℚ) :
    Right a (.setPageSize size) (perform a (.setPageSize size)) := by
  refine (right_changeBound h (b := { a.fresh with pageSize := size }) a.quiet_fresh (p := .pageSize)
    (by decide) (fun hsame => ?_) _).mpr (.inr h.lower_le)
  rw [← not_not.mp hsame]
  rfl

end

variable (a)

theorem setValue_value (value : ℚ) : (a.setValue value).value = a.target value := by
  rw [setValue, ← target]
  split
  · rfl
  · next hsame => exact not_not.mp hsame

@[simp] theorem setValue_bounds (value : ℚ) :
    (a.setValue value).lower = a.lower ∧ (a.setValue value).upper = a.upper ∧
      (a.setValue value).pageSize = a.pageSize := by
  rw [setValue]
  split <;> exact ⟨rfl, rfl, rfl⟩

theorem inRange_setValue (value : ℚ) : (a.setValue value).InRange := by
  obtain ⟨hlower, hupper, hsize⟩ := a.setValue_bounds value
  have hmem := a.target_mem value
  constructor
  · rw [hlower, setValue_value]
    exact hmem.1
  · rw [hlower, hupper, hsize, setValue_value]
    exact hmem.2

variable {a}

theorem Quiet.setValue_loud_iff (h : a.Quiet v) (value : ℚ) :
    (a.setValue value).Loud ↔ (a.setValue value).value ≠ v := by
  rw [setValue_value, setValue, ← target, ← h.1]
  split
  · next hne => exact iff_of_true (loud_assignValue _) (Ne.symm hne)
  · next hsame =>
    rw [not_not] at hsame
    exact iff_of_false h.not_loud (not_not.mpr hsame.symm)

theorem right_setValue (a : Adjustment) (value : ℚ) :
    Right a (.setValue value) (perform a (.setValue value)) :=
  right_iff.mpr ⟨inRange_setValue _ _, a.quiet_fresh.setValue_loud_iff value⟩

theorem pageLower_of_fits (hfits : a.Fits) (lower : ℚ) :
    a.pageLower lower = max a.lower (min lower (a.upper - a.pageSize)) := by
  rw [Fits] at hfits
  rw [pageLower, clamp_eq_max_min (by linarith)]

theorem pageUpper_of_fits (hfits : a.Fits) (upper : ℚ) :
    a.pageUpper upper = max a.lower (min (upper - a.pageSize) (a.upper - a.pageSize)) := by
  rw [Fits] at hfits
  rw [pageUpper, clamp_eq_max_min (by linarith), ← max_sub_sub_right, ← min_sub_sub_right,
    add_sub_cancel_right]

theorem pageLower_of_not_fits (hnot : ¬ a.Fits) (lower : ℚ) :
    a.pageLower lower = if a.upper - a.pageSize < lower then a.upper - a.pageSize else a.lower := by
  rw [Fits, not_le] at hnot
  rw [pageLower, clamp]
  split
  · rfl
  · next h => rw [if_pos (by linarith)]

theorem pageUpper_of_not_fits (hnot : ¬ a.Fits) (upper : ℚ) :
    a.pageUpper upper = if a.upper < upper then a.upper - a.pageSize else a.lower := by
  rw [Fits, not_le] at hnot
  rw [pageUpper, clamp]
  split
  · rfl
  · next h => rw [if_pos (by linarith), add_sub_cancel_right]

theorem right_clampPage_of_fits (hfits : a.Fits) (h : a.InRange) (lower upper : ℚ) :
    Right a (.clampPage lower upper) (perform a (.clampPage lower upper)) ↔
      ¬ (a.lower < a.value ∧ upper - a.pageSize < a.value ∧
        a.value = max a.lower (min lower (a.upper - a.pageSize))) := by
  have hfit : a.lower ≤ a.upper - a.pageSize := by
    rw [Fits] at hfits
    linarith
  have hle : a.value ≤ a.upper - a.pageSize := by
    have hle := h.le_upper
    rwa [max_eq_right hfit] at hle
  have hlow : a.pageLower lower = max a.lower (min lower (a.upper - a.pageSize)) :=
    pageLower_of_fits hfits lower
  have hhigh : a.pageUpper upper < a.value ↔ a.lower < a.value ∧ upper - a.pageSize < a.value := by
    rw [pageUpper_of_fits hfits, max_lt_iff, min_lt_iff, or_iff_left (not_lt.mpr hle)]
  rw [right_iff, ← hlow, ← and_assoc, ← hhigh]
  show (a.fresh.clampPage lower upper).InRange ∧
    ((a.fresh.clampPage lower upper).Loud ↔ (a.fresh.clampPage lower upper).value ≠ a.value) ↔ _
  rw [clampPage_eq]
  split
  · next hin =>
    have hup : a.value ≤ a.pageUpper upper := hin.2
    exact iff_of_true ⟨h.fresh, a.quiet_fresh.loud_iff⟩ fun hout => absurd hout.1 (not_lt.mpr hup)
  · next hmoved =>
    have hout : ¬ (a.pageLower lower ≤ a.value ∧ a.value ≤ a.pageUpper upper) := hmoved
    have hmem : a.lower ≤ max (a.pageLower lower) (min a.value (a.pageUpper upper)) ∧
        max (a.pageLower lower) (min a.value (a.pageUpper upper)) ≤ a.upper - a.pageSize := by
      rw [hlow]
      exact ⟨le_max_of_le_left (le_max_left _ _),
        max_le (max_le hfit (min_le_right _ _)) ((min_le_left _ _).trans hle)⟩
    have hrange : (a.fresh.assignValue
        (max (a.fresh.pageLower lower) (min a.fresh.value (a.fresh.pageUpper upper)))).InRange :=
      ⟨hmem.1, le_max_of_le_right hmem.2⟩
    have hloud := a.fresh.loud_assignValue
      (max (a.fresh.pageLower lower) (min a.fresh.value (a.fresh.pageUpper upper)))
    rw [and_iff_right hrange, iff_true_left hloud]
    show max (a.pageLower lower) (min a.value (a.pageUpper upper)) ≠ a.value ↔ _
    rw [Ne, max_min_eq_iff, or_iff_right hout, eq_comm (a := a.pageLower lower)]

theorem right_clampPage_of_not_fits (hnot : ¬ a.Fits) (h : a.InRange) (lower upper : ℚ) :
    Right a (.clampPage lower upper) (perform a (.clampPage lower upper)) ↔ upper ≤ a.upper := by
  have hvalue : a.value = a.lower := (h.fits_or_eq.resolve_left fun hfits => hnot hfits.1).2
  have hless : a.upper - a.pageSize < a.lower := by
    rw [Fits, not_le] at hnot
    linarith
  have hlow : a.pageLower lower ≤ a.value ∧ a.pageLower lower ≤ a.lower := by
    rw [pageLower_of_not_fits hnot, hvalue]
    split <;> exact ⟨by linarith, by linarith⟩
  have hup := pageUpper_of_not_fits hnot upper
  rw [right_iff]
  show (a.fresh.clampPage lower upper).InRange ∧
    ((a.fresh.clampPage lower upper).Loud ↔ (a.fresh.clampPage lower upper).value ≠ a.value) ↔ _
  rw [clampPage_eq]
  by_cases hbeyond : a.upper < upper
  · rw [if_pos hbeyond] at hup
    have hout : ¬ (a.fresh.pageLower lower ≤ a.fresh.value ∧ a.fresh.value ≤ a.fresh.pageUpper upper) := by
      rintro ⟨-, hin⟩
      have hin' : a.value ≤ a.pageUpper upper := hin
      rw [hup, hvalue] at hin'
      exact absurd hless (not_lt.mpr hin')
    rw [if_neg hout]
    refine iff_of_false ?_ (not_le.mpr hbeyond)
    rintro ⟨hrange, hloud⟩
    have hmoved := hloud.mp (a.fresh.loud_assignValue _)
    -- in range it would be `lower` again, which it was
    rcases hrange.fits_or_eq with ⟨hfits, -⟩ | ⟨-, heq⟩
    · exact hnot hfits
    · exact hmoved (heq.trans hvalue.symm)
  · rw [if_neg hbeyond] at hup
    have hin : a.fresh.pageLower lower ≤ a.fresh.value ∧ a.fresh.value ≤ a.fresh.pageUpper upper :=
      ⟨hlow.1, hvalue.le.trans hup.ge⟩
    rw [if_pos hin]
    exact iff_of_true ⟨h.fresh, a.quiet_fresh.loud_iff⟩ (not_lt.mp hbeyond)

theorem right_clampPage (h : a.InRange) (lower upper : ℚ) :
    Right a (.clampPage lower upper) (perform a (.clampPage lower upper)) ↔
      a.Meets (.clampPage lower upper) := by
  show _ ↔ if a.Fits then _ else _
  by_cases hfits : a.Fits
  · rw [if_pos hfits]
    exact right_clampPage_of_fits hfits h lower upper
  · rw [if_neg hfits]
    exact right_clampPage_of_not_fits hfits h lower upper

/-! ## `set_values` -/

variable (a)

@[simp] theorem setLower_bounds (lower : ℚ) :
    (a.setLower lower).lower = lower ∧ (a.setLower lower).upper = a.upper ∧
      (a.setLower lower).pageSize = a.pageSize := by
  rw [setLower]
  split
  · exact clampPage_bounds _ _ _
  · next hsame => exact ⟨not_not.mp hsame, rfl, rfl⟩

@[simp] theorem setUpper_bounds (upper : ℚ) :
    (a.setUpper upper).lower = a.lower ∧ (a.setUpper upper).upper = upper ∧
      (a.setUpper upper).pageSize = a.pageSize := by
  rw [setUpper]
  split
  · exact clampPage_bounds _ _ _
  · next hsame => exact ⟨rfl, not_not.mp hsame, rfl⟩

@[simp] theorem setPageSize_bounds (size : ℚ) :
    (a.setPageSize size).lower = a.lower ∧ (a.setPageSize size).upper = a.upper ∧
      (a.setPageSize size).pageSize = size := by
  rw [setPageSize]
  split
  · exact clampPage_bounds _ _ _
  · next hsame => exact ⟨rfl, rfl, not_not.mp hsame⟩

@[simp] theorem setIncrements_bounds (step page : ℚ) :
    (a.setIncrements step page).lower = a.lower ∧ (a.setIncrements step page).upper = a.upper ∧
      (a.setIncrements step page).pageSize = a.pageSize ∧
      (a.setIncrements step page).value = a.value := by
  rw [setIncrements, setPageIncrement, setStepIncrement]
  split <;> split <;> exact ⟨rfl, rfl, rfl, rfl⟩

theorem between_setIncrements (step page : ℚ) :
    (a.setIncrements step page).Between ↔ a.Between := by
  obtain ⟨hlower, hupper, hsize, hvalue⟩ := a.setIncrements_bounds step page
  rw [Between, hlower, hupper, hsize, hvalue]
  rfl

variable {a}

theorem Quiet.setIncrements (h : a.Quiet v) (step page : ℚ) : (a.setIncrements step page).Quiet v := by
  have hstep : (a.setStepIncrement step).Quiet v := by
    rw [setStepIncrement]
    split
    · exact Quiet.notify (a := { a with stepIncrement := step }) h (by decide)
    · exact h
  rw [Adjustment.setIncrements, setPageIncrement]
  split
  · exact Quiet.notify (a := { a.setStepIncrement step with pageIncrement := page }) hstep (by decide)
  · exact hstep

def setBounds (a : Adjustment) (lower upper step page size : ℚ) : Adjustment :=
  (((a.setLower lower).setUpper upper).setIncrements step page).setPageSize size

theorem setBounds_bounds (a : Adjustment) (lower upper step page size : ℚ) :
    (a.setBounds lower upper step page size).lower = lower ∧
      (a.setBounds lower upper step page size).upper = upper ∧
      (a.setBounds lower upper step page size).pageSize = size := by
  simp [setBounds]

theorem Quiet.setBounds (h : a.Quiet v) (hbetween : a.Between) (lower upper step page size : ℚ) :
    (Lies lower a.upper a.pageSize v ∧ Lies lower upper a.pageSize v ∧ Lies lower upper size v →
        (a.setBounds lower upper step page size).Quiet v) ∧
      (¬ (Lies lower a.upper a.pageSize v ∧ Lies lower upper a.pageSize v ∧
          Lies lower upper size v) → (a.setBounds lower upper step page size).Loud) := by
  have hfirst := h.setLower hbetween lower
  obtain ⟨hlow₁, hup₁, hsize₁⟩ := a.setLower_bounds lower
  obtain ⟨hlow₂, hup₂, hsize₂⟩ := (a.setLower lower).setUpper_bounds upper
  obtain ⟨hlow₃, hup₃, hsize₃, -⟩ :=
    ((a.setLower lower).setUpper upper).setIncrements_bounds step page
  by_cases h₁ : Lies lower a.upper a.pageSize v
  swap
  · exact ⟨fun hall => absurd hall.1 h₁, fun _ =>
      (((hfirst.2 h₁).setUpper upper).setIncrements step page).setPageSize size⟩
  obtain ⟨hquiet₁, hbetween₁⟩ := hfirst.1 h₁
  have hsecond := hquiet₁.setUpper hbetween₁ upper
  rw [hlow₁, hsize₁] at hsecond
  by_cases h₂ : Lies lower upper a.pageSize v
  swap
  · exact ⟨fun hall => absurd hall.2.1 h₂, fun _ =>
      ((hsecond.2 h₂).setIncrements step page).setPageSize size⟩
  obtain ⟨hquiet₂, hbetween₂⟩ := hsecond.1 h₂
  have hthird := (hquiet₂.setIncrements step page).setPageSize
    ((between_setIncrements _ step page).mpr hbetween₂) size
  rw [hlow₃, hup₃, hlow₂, hup₂, hlow₁] at hthird
  exact ⟨fun hall => (hthird.1 hall.2.2).1, fun hnot => hthird.2 fun h₃ => hnot ⟨h₁, h₂, h₃⟩⟩

theorem right_setValues (h : a.InRange) (value lower upper step page size : ℚ) :
    Right a (.setValues value lower upper step page size)
        (perform a (.setValues value lower upper step page size)) ↔
      a.Meets (.setValues value lower upper step page size) := by
  rw [right_iff]
  show (a.fresh.setValues value lower upper step page size).InRange ∧
    ((a.fresh.setValues value lower upper step page size).Loud ↔
      (a.fresh.setValues value lower upper step page size).value ≠ a.value) ↔
    (_ → valuesTarget value lower upper size ≠ a.value ∨ _)
  rw [setValues]
  by_cases hnonneg : 0 ≤ size ∧ 0 ≤ step ∧ 0 ≤ page
  swap
  · -- the call is refused
    rw [if_neg hnonneg]
    exact iff_of_true ⟨h.fresh, a.quiet_fresh.loud_iff⟩ fun hnonneg' => absurd hnonneg' hnonneg
  rw [if_pos hnonneg, forall_prop_of_true hnonneg]
  show ((a.fresh.setBounds lower upper step page size).setValue value).thaw.InRange ∧
    (((a.fresh.setBounds lower upper step page size).setValue value).thaw.Loud ↔ _) ↔ _
  obtain ⟨hlow, hup, hsize⟩ := a.fresh.setBounds_bounds lower upper step page size
  have hend : ((a.fresh.setBounds lower upper step page size).setValue value).value =
      valuesTarget value lower upper size := by
    rw [setValue_value, target, hlow, hup, hsize, valuesTarget]
  have hthaw : ((a.fresh.setBounds lower upper step page size).setValue value).thaw.Loud ↔
      ((a.fresh.setBounds lower upper step page size).setValue value).Loud := List.mem_dedup
  have hrange := (a.fresh.setBounds lower upper step page size).inRange_setValue value
  have hrange' : ((a.fresh.setBounds lower upper step page size).setValue value).thaw.InRange :=
    ⟨hrange.lower_le, hrange.le_upper⟩
  have hbounds := a.quiet_fresh.setBounds h.fresh.between lower upper step page size
  rw [and_iff_right hrange', hthaw]
  show (_ ↔ ((a.fresh.setBounds lower upper step page size).setValue value).value ≠ a.value) ↔ _
  by_cases hall : Lies lower a.upper a.pageSize a.value ∧ Lies lower upper a.pageSize a.value ∧
      Lies lower upper size a.value
  · exact iff_of_true ((hbounds.1 hall).setValue_loud_iff value) (.inr hall)
  · have hloud := (hbounds.2 hall).setValue value
    rw [iff_true_left hloud, hend, or_iff_left hall]

/-! ## Runs -/

theorem right_perform_iff (h : a.InRange) (c : Call) : Right a c (perform a c) ↔ a.Meets c := by
  cases c with
  | setLower lower => exact right_setLower h lower
  | setUpper upper => exact iff_of_true (right_setUpper h upper) trivial
  | setPageSize size => exact iff_of_true (right_setPageSize h size) trivial
  | setValue value => exact iff_of_true (right_setValue a value) trivial
  | setValues value lower upper step page size => exact right_setValues h value lower upper step page size
  | clampPage lower upper => exact right_clampPage h lower upper

theorem inRange_new (p : Params) :
    (new p).InRange ↔ p.pageSize ≤ p.upper - p.lower ∨ p.lower ≤ p.value :=
  inRange_settle _

def RightAll (p : Params) (calls : List Call) : Prop :=
  (new p).InRange ∧ Runs.Along step Right (new p) calls

theorem run_eq (a : Adjustment) (calls : List Call) :
    Runs.run step a calls = some (calls.foldl perform a) := by
  induction calls generalizing a with
  | nil => rfl
  | cons c calls ih => exact ih (perform a c)

/-- **The value stays in its range, and is notified when it changes and only then, in exactly the
runs that are constructed with room for the page or a value from `lower` on, and all of whose calls
meet `Meets`.** -/
theorem right_run_iff (p : Params) (calls : List Call) : RightAll p calls ↔
      (p.pageSize ≤ p.upper - p.lower ∨ p.lower ≤ p.value) ∧
        Runs.Allowed step Meets (new p) calls := by
  rw [RightAll, inRange_new]
  refine and_congr_right fun hnew => ?_
  refine Runs.along_iff_allowed (I := InRange) ((inRange_new p).mpr hnew) ?_ ?_ (run_eq _ calls)
  · exact fun _ _ _ _ _ hright => hright.inRange
  · intro u c v hu hv
    obtain rfl : perform u c = v := Option.some.inj hv
    exact right_perform_iff hu c

/-- A page of 20 on a range of 10: the lower bound is moved up to 5, and the value stays at 0. -/
theorem not_rightAll_setLower :
    ¬ RightAll ⟨0, 0, 10, 1, 1, 20, by decide, by decide⟩ [.setLower 5] := by
  intro h
  have hright := (h.2 _ rfl).1
  exact absurd hright.inRange.lower_le (by decide +kernel)

end Adjustment

end StAdjustment
