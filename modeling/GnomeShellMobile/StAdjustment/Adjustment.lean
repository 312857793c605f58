import Mathlib.Data.List.Dedup
import Mathlib.Data.Rat.Defs
import Mathlib.Algebra.Order.Ring.Rat

/-!
# StAdjustment — a value within a range

`StAdjustment` of `st/st-adjustment.c`, with rational numbers for its doubles. Every setter notifies
the properties it changes; `notified` is what has been notified since the call began. The handlers of
these notifications, the `actor` and the transitions are left out.
-/

namespace StAdjustment

inductive Property where
  | lower
  | upper
  | value
  | stepIncrement
  | pageIncrement
  | pageSize
deriving DecidableEq

structure Adjustment where
  lower : ℚ
  upper : ℚ
  value : ℚ
  stepIncrement : ℚ
  pageIncrement : ℚ
  pageSize : ℚ
  notified : List Property
deriving DecidableEq

/-- `CLAMP` of GLib: the upper bound is looked at first. -/
def clamp (x low high : ℚ) : ℚ := if high < x then high else if x < low then low else x

namespace Adjustment

variable (a : Adjustment)

def notify (p : Property) : Adjustment := { a with notified := a.notified ++ [p] }

def assignValue (v : ℚ) : Adjustment := { a with value := v }.notify .value

def setValue (value : ℚ) : Adjustment :=
  let value := clamp value a.lower (max a.lower (a.upper - a.pageSize))
  if a.value ≠ value then a.assignValue value else a

def clampPage (lower upper : ℚ) : Adjustment :=
  let lower := clamp lower a.lower (a.upper - a.pageSize)
  let upper := clamp upper (a.lower + a.pageSize) a.upper
  let above := decide (upper < a.value + a.pageSize)
  let value := if above then upper - a.pageSize else a.value
  let below := decide (value < lower)
  let value := if below then lower else value
  -- `changed` tells that one of the two was assigned
  if above || below then a.assignValue value else a

def setLower (lower : ℚ) : Adjustment :=
  if a.lower ≠ lower then
    let a := { a with lower := lower }.notify .lower
    a.clampPage a.lower a.upper
  else a

def setUpper (upper : ℚ) : Adjustment :=
  if a.upper ≠ upper then
    let a := { a with upper := upper }.notify .upper
    a.clampPage a.lower a.upper
  else a

def setStepIncrement (step : ℚ) : Adjustment :=
  if a.stepIncrement ≠ step then { a with stepIncrement := step }.notify .stepIncrement else a

def setPageIncrement (page : ℚ) : Adjustment :=
  if a.pageIncrement ≠ page then { a with pageIncrement := page }.notify .pageIncrement else a

def setPageSize (size : ℚ) : Adjustment :=
  if a.pageSize ≠ size then
    let a := { a with pageSize := size }.notify .pageSize
    a.clampPage a.lower a.upper
  else a

/-- `g_object_thaw_notify`: what was notified since the freeze is notified once. -/
def thaw : Adjustment := { a with notified := a.notified.dedup }

/-- `st_adjustment_set_values`. A negative size or increment is refused; that they are at most the
greatest double is not asked of rational numbers. -/
def setValues (value lower upper stepIncrement pageIncrement pageSize : ℚ) : Adjustment :=
  if 0 ≤ pageSize ∧ 0 ≤ stepIncrement ∧ 0 ≤ pageIncrement then
    ((((((a.setLower lower).setUpper upper).setStepIncrement stepIncrement).setPageIncrement
      pageIncrement).setPageSize pageSize).setValue value).thaw
  else a

end Adjustment

structure Params where
  value : ℚ
  lower : ℚ
  upper : ℚ
  stepIncrement : ℚ
  pageIncrement : ℚ
  pageSize : ℚ
  lower_le_upper : lower ≤ upper
  pageSize_nonneg : 0 ≤ pageSize

/-- `st_adjustment_new`: the properties are set as they are, and `st_adjustment_constructed` clamps
the page. -/
def new (p : Params) : Adjustment :=
  let a : Adjustment := ⟨p.lower, p.upper, p.value, p.stepIncrement, p.pageIncrement, p.pageSize, []⟩
  a.clampPage a.lower a.upper

inductive Call where
  | setLower (lower : ℚ)
  | setUpper (upper : ℚ)
  | setPageSize (size : ℚ)
  | setValue (value : ℚ)
  | setValues (value lower upper stepIncrement pageIncrement pageSize : ℚ)
  | clampPage (lower upper : ℚ)

def perform (a : Adjustment) (c : Call) : Adjustment :=
  let a := { a with notified := [] }
  match c with
  | .setLower lower => a.setLower lower
  | .setUpper upper => a.setUpper upper
  | .setPageSize size => a.setPageSize size
  | .setValue value => a.setValue value
  | .setValues value lower upper stepIncrement pageIncrement pageSize =>
    a.setValues value lower upper stepIncrement pageIncrement pageSize
  | .clampPage lower upper => a.clampPage lower upper

def step (a : Adjustment) (c : Call) : Option Adjustment := some (perform a c)

end StAdjustment
