import Mathlib.Data.List.ModifyLast
import Mathlib.Data.NNRat.Defs
import Mathlib.Data.Rat.Floor

/-!
# QuickSettings — the layout of the grid

`QuickSettingsLayout` of `js/ui/quickSettings.js`. Tiles of one or more columns are put into rows in
their order.

* `getRows`: the rows.
* `allocate`: the boxes of the children, row by row.

Positions are rationals: floats are not rounded here.
-/

namespace QuickSettings

/-- A child, with `column-span` of its meta. -/
structure Child where
  id : ℕ
  visible : Bool
  columnSpan : ℤ
  minHeight : ℚ
  natHeight : ℚ
  menuVisible : Bool
  deriving DecidableEq

structure ActorBox where
  x1 : ℚ
  y1 : ℚ
  x2 : ℚ
  y2 : ℚ
  deriving DecidableEq

namespace ActorBox

def width (box : ActorBox) : ℚ := box.x2 - box.x1

/-- `set_origin` and `set_size`. -/
def ofOrigin (x y width height : ℚ) : ActorBox := ⟨x, y, x + width, y + height⟩

def mirror (box a : ActorBox) : ActorBox :=
  { a with x1 := box.x1 + box.x2 - a.x2, x2 := box.x1 + box.x2 - a.x1 }

end ActorBox

structure Layout where
  rowSpacing : ℕ
  columnSpacing : ℕ
  nColumns : ℕ
  nColumns_pos : 0 < nColumns
  overlay : ℕ
  overlayHeight : ℚ≥0

def clamp (x lower upper : ℤ) : ℤ := min (max x lower) upper

namespace Layout

variable (layout : Layout)

def colSpan (child : Child) : ℕ :=
  if child.columnSpan = -1 then layout.nColumns
  else (clamp child.columnSpan 1 layout.nColumns).toNat

/-- The state of the loop in `_getRows`; the last row is `curRow`. -/
structure Lines where
  rows : List (List Child)
  lineIndex : ℕ

variable (lines : Lines)

def Lines.appendRow : Lines := ⟨lines.rows ++ [[]], 0⟩

def addChild (child : Child) : Lines :=
  let lines := if lines.lineIndex = 0 then lines.appendRow else lines
  let fitsRow : Bool := lines.lineIndex + layout.colSpan child ≤ layout.nColumns
  let lines := if fitsRow then lines else lines.appendRow
  { rows := lines.rows.modifyLast (· ++ [child])
    lineIndex := (lines.lineIndex + layout.colSpan child) % layout.nColumns }

def addIfShown (child : Child) : Lines :=
  if child.visible then
    if child.id = layout.overlay then lines else layout.addChild lines child
  else lines

variable (children : List Child)

def getRows : List (List Child) :=
  (children.foldl layout.addIfShown ⟨[], 0⟩).rows

/-- `_getRowHeight`: the minimum height and the natural one. -/
def getRowHeight : ℚ × ℚ :=
  children.foldl (fun (minHeight, natHeight) child =>
    (max minHeight child.minHeight, max natHeight child.natHeight)) (0, 0)

/-- `childWidth` in `vfunc_allocate`. -/
def childWidth (box : ActorBox) : ℤ :=
  ⌊(box.width - ((layout.nColumns : ℚ) - 1) * layout.columnSpacing) / layout.nColumns⌋

/-- `width` in `vfunc_allocate`. -/
def width (box : ActorBox) (child : Child) : ℚ :=
  layout.childWidth box * layout.colSpan child +
    layout.columnSpacing * ((layout.colSpan child : ℚ) - 1)

def childBox (rtl : Bool) (box : ActorBox) (y rowNat : ℚ) (lineIndex : ℕ) (child : Child) :
    ActorBox :=
  let width := layout.width box child
  let x := box.x1 + lineIndex * (layout.childWidth box + layout.columnSpacing)
  let x := if rtl then box.x2 - width - x else x
  .ofOrigin x y width rowNat

def allocateRow (rtl : Bool) (box : ActorBox) (y rowNat : ℚ) :
    ℕ → List Child → List (Child × ActorBox)
  | _, [] => []
  | lineIndex, child :: row =>
    (child, layout.childBox rtl box y rowNat lineIndex child) ::
      allocateRow rtl box y rowNat ((lineIndex + layout.colSpan child) % layout.nColumns) row

def nextY (y : ℚ) (row : List Child) : ℚ :=
  let y := y + ((getRowHeight row).2 + layout.rowSpacing)
  if row.any (·.menuVisible) then y + layout.overlayHeight else y

def allocateRows (rtl : Bool) (box : ActorBox) :
    ℚ → List (List Child) → List (List (Child × ActorBox))
  | _, [] => []
  | y, row :: rows =>
    layout.allocateRow rtl box y (getRowHeight row).2 0 row ::
      allocateRows rtl box (layout.nextY y row) rows

def allocate (rtl : Bool) (children : List Child) (box : ActorBox) :
    List (List (Child × ActorBox)) :=
  layout.allocateRows rtl box box.y1 (layout.getRows children)

def shown : List Child :=
  children.filter fun child => child.visible && child.id ≠ layout.overlay

end Layout

end QuickSettings
