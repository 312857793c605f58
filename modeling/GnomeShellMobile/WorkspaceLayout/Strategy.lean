import Mathlib.Algebra.Order.Ring.Rat
import Mathlib.Algebra.Order.Field.Basic
import Mathlib.Data.Rat.Cast.Order

/-!
# WorkspaceLayout — the layout strategy of the window picker

`UnalignedLayoutStrategy` and `_createBestLayout` of `js/ui/workspace.js`, over the rationals.

* The sizes of windows are positive, and so is the height of the monitor; no spacing is negative.
* Where a number is not finite it is `none`: a division by zero gives an infinity, or no number.
* `_createBestLayout` takes fuel for its rows.
-/

namespace WorkspaceLayout

structure BoundingBox where
  x : ℚ
  y : ℚ
  width : ℚ
  height : ℚ
  width_pos : 0 < width
  height_pos : 0 < height

structure WindowPreview where
  boundingBox : BoundingBox

def WindowPreview.windowCenterX (window : WindowPreview) : ℚ :=
  window.boundingBox.x + window.boundingBox.width / 2

def WindowPreview.windowCenterY (window : WindowPreview) : ℚ :=
  window.boundingBox.y + window.boundingBox.height / 2

structure Area where
  x : ℚ
  y : ℚ
  width : ℚ
  height : ℚ

def windowPreviewMaximumScale : ℚ := 95 / 100

def layoutScaleWeight : ℚ := 1

def layoutSpaceWeight : ℚ := 1 / 10

def lerp (start stop progress : ℚ) : ℚ := start + progress * (stop - start)

/-- `Math.min(m, a / b)`, where `a / 0` is an infinity for `a ≠ 0` and no number for `a = 0`. -/
def minRatio (m a b : ℚ) : Option ℚ :=
  if b = 0 then if 0 < a then some m else none else some (min m (a / b))

structure Strategy where
  monitorHeight : ℚ
  rowSpacing : ℚ
  columnSpacing : ℚ
  monitorHeight_pos : 0 < monitorHeight
  rowSpacing_nonneg : 0 ≤ rowSpacing
  columnSpacing_nonneg : 0 ≤ columnSpacing

/-- `fullWidth` and `fullHeight` are not scaled; the `width` and `height` of a row follow from them and
the scale. -/
structure Row where
  fullWidth : ℚ
  fullHeight : ℚ
  windows : List WindowPreview

def newRow : Row := ⟨0, 0, []⟩

structure Layout where
  numRows : ℕ
  rows : List Row
  maxColumns : ℕ
  gridWidth : ℚ
  gridHeight : ℚ

/-- A row with what `computeWindowSlots` adds to it, and its part of the compensation. -/
structure PlacedRow where
  row : Row
  x : ℚ
  y : ℚ
  height : ℚ
  additionalScale : ℚ
  compensation : ℚ

structure Slot where
  x : ℚ
  y : ℚ
  width : ℚ
  height : ℚ
  window : WindowPreview

def Row.height (row : Row) (scale : ℚ) : ℚ := row.fullHeight * scale

def Row.sort (row : Row) : Row :=
  { row with windows := row.windows.mergeSort fun a b => a.windowCenterX ≤ b.windowCenterX }

/-- `_keepSameRow`. With an ideal width of zero no ratio is less than another. -/
def Row.keepSame (row : Row) (width idealRowWidth : ℚ) : Bool :=
  if row.fullWidth + width ≤ idealRowWidth then true
  else
    let oldRatio := row.fullWidth / idealRowWidth
    let newRatio := (row.fullWidth + width) / idealRowWidth
    |1 - newRatio| < |1 - oldRatio|

def maxRow (rows : List Row) : Option Row :=
  rows.foldl (fun maxRow row =>
    match maxRow with
    | none => some row
    | some widest => if row.fullWidth > widest.fullWidth then some row else some widest) none

namespace Strategy

variable (s : Strategy)

def computeWindowScale (window : WindowPreview) : ℚ :=
  lerp (3 / 2) 1 (window.boundingBox.height / s.monitorHeight)

/-- The width of a row after `_computeRowSizes`. -/
def rowWidth (row : Row) (scale : ℚ) : ℚ :=
  row.fullWidth * scale + (row.windows.length - 1) * s.columnSpacing

def fillRow (idealRowWidth : ℚ) (last : Bool) : Row → List WindowPreview → Row × List WindowPreview
  | row, [] => (row, [])
  | row, window :: windows =>
    let scale := s.computeWindowScale window
    let width := window.boundingBox.width * scale
    let height := window.boundingBox.height * scale
    let row := { row with fullHeight := max row.fullHeight height }
    if row.keepSame width idealRowWidth || last then
      fillRow idealRowWidth last
        { row with windows := row.windows ++ [window], fullWidth := row.fullWidth + width } windows
    else (row, window :: windows)

def fillRows (idealRowWidth : ℚ) : ℕ → List WindowPreview → List Row
  | 0, _ => []
  | n + 1, windows =>
    let filled := s.fillRow idealRowWidth (n = 0) newRow windows
    filled.1 :: fillRows idealRowWidth n filled.2

def computeLayout (windows : List WindowPreview) (numRows : ℕ) : Option Layout :=
  let totalWidth :=
    (windows.map fun window => window.boundingBox.width * s.computeWindowScale window).sum
  let sortedWindows := windows.mergeSort fun a b => a.windowCenterY ≤ b.windowCenterY
  let rows := (s.fillRows (totalWidth / numRows) numRows sortedWindows).map Row.sort
  match maxRow rows with
  | none => none
  | some maxRow => some {
      numRows := numRows
      rows := rows
      maxColumns := maxRow.windows.length
      gridWidth := maxRow.fullWidth
      gridHeight := (rows.map Row.fullHeight).sum }

def computeScaleAndSpace (layout : Layout) (area : Area) : Option (ℚ × ℚ) :=
  let hspacing := (layout.maxColumns - 1) * s.columnSpacing
  let vspacing := (layout.numRows - 1) * s.rowSpacing
  let scale := (minRatio windowPreviewMaximumScale (area.width - hspacing) layout.gridWidth).bind
    fun horizontal => minRatio horizontal (area.height - vspacing) layout.gridHeight
  scale.map fun scale =>
    let scaledLayoutWidth := layout.gridWidth * scale + hspacing
    let scaledLayoutHeight := layout.gridHeight * scale + vspacing
    (scale, (scaledLayoutWidth * scaledLayoutHeight) / (area.width * area.height))

/-- The first loop of `computeWindowSlots`; the rows start at `y`, each with its additional scale. -/
def placeRows (scale : ℚ) (area : Area) (additionalVerticalScale top : ℚ) :
    ℚ → List Row → Option (List PlacedRow)
  | _, [] => some []
  | y, row :: rows =>
    let horizontalSpacing := (row.windows.length - 1) * s.columnSpacing
    let widthWithoutSpacing := s.rowWidth row scale - horizontalSpacing
    match minRatio 1 (area.width - horizontalSpacing) widthWithoutSpacing with
    | none => none
    | some additionalHorizontalScale =>
      let additionalScale :=
        if additionalHorizontalScale < additionalVerticalScale then additionalHorizontalScale
        else additionalVerticalScale
      let compensation :=
        if additionalHorizontalScale < additionalVerticalScale then
          (additionalVerticalScale - additionalHorizontalScale) * row.height scale
        else 0
      let placed := {
        row := row
        x := area.x +
          max (area.width - (widthWithoutSpacing * additionalScale + horizontalSpacing)) 0 / 2
        y := top + y
        height := row.height scale
        additionalScale := additionalScale
        compensation := compensation }
      (placeRows scale area additionalVerticalScale top
        (y + row.height scale * additionalScale + s.rowSpacing) rows).map (placed :: ·)

def cellScale (scale additionalScale : ℚ) (window : WindowPreview) : ℚ :=
  scale * s.computeWindowScale window * additionalScale

/-- The slot of a window whose cell starts at `x`. -/
def slot (scale : ℚ) (single : Bool) (placed : PlacedRow) (compensation x : ℚ)
    (window : WindowPreview) : Slot :=
  let rowY := placed.y + compensation
  let rowHeight := placed.height * placed.additionalScale
  let cellScale := s.cellScale scale placed.additionalScale window
  let cellWidth := window.boundingBox.width * cellScale
  let cellHeight := window.boundingBox.height * cellScale
  let cloneScale := min cellScale windowPreviewMaximumScale
  let cloneWidth := window.boundingBox.width * cloneScale
  let cloneHeight := window.boundingBox.height * cloneScale
  { x := x + (cellWidth - cloneWidth) / 2
    y := if single then rowY + (rowHeight - cloneHeight) / 2 else rowY + rowHeight - cellHeight
    width := cloneWidth
    height := cloneHeight
    window := window }

/-- The slots of a row, the first one at `x`. -/
def rowSlots (scale : ℚ) (single : Bool) (placed : PlacedRow) (compensation : ℚ) :
    ℚ → List WindowPreview → List Slot
  | _, [] => []
  | x, window :: windows =>
    let cellWidth := window.boundingBox.width * s.cellScale scale placed.additionalScale window
    s.slot scale single placed compensation x window ::
      rowSlots scale single placed compensation (x + cellWidth + s.columnSpacing) windows

def computeWindowSlots (layout : Layout) (scale : ℚ) (area : Area) : Option (List Slot) :=
  let heightWithoutSpacing := (layout.rows.map (Row.height · scale)).sum
  let verticalSpacing := (layout.rows.length - 1) * s.rowSpacing
  match minRatio 1 (area.height - verticalSpacing) heightWithoutSpacing with
  | none => none
  | some additionalVerticalScale =>
    let top := area.y + max (area.height - (heightWithoutSpacing + verticalSpacing)) 0 / 2
    (s.placeRows scale area additionalVerticalScale top 0 layout.rows).map fun placedRows =>
      let compensation := (placedRows.map PlacedRow.compensation).sum / 2
      placedRows.flatMap fun placed =>
        s.rowSlots scale (layout.rows.length = 1) placed compensation placed.x placed.row.windows

end Strategy

/-- `_isBetterScaleAndSpace`; no comparison holds of what is not a number. -/
def isBetterScaleAndSpace : Option (ℚ × ℚ) → Option (ℚ × ℚ) → Bool
  | some (oldScale, oldSpace), some (scale, space) =>
    let spacePower := (space - oldSpace) * layoutSpaceWeight
    let scalePower := (scale - oldScale) * layoutScaleWeight
    if scale > oldScale ∧ space > oldSpace then true
    else if scale > oldScale ∧ space ≤ oldSpace then scalePower > spacePower
    else if scale ≤ oldScale ∧ space > oldSpace then spacePower > scalePower
    else false
  | _, _ => false

/-- The loop of `_createBestLayout`, from `numRows` rows on. -/
def createBestLayoutFrom (s : Strategy) (windows : List WindowPreview) (area : Area) :
    ℕ → ℕ → Option Layout → Option ℕ → Option (ℚ × ℚ) → Option Layout
  | 0, _, _, _, _ => none
  | fuel + 1, numRows, lastLayout, lastNumColumns, lastScaleAndSpace =>
    let numColumns := (windows.length + numRows - 1) / numRows
    if lastNumColumns = some numColumns then lastLayout
    else
      (s.computeLayout windows numRows).bind fun layout =>
        let scaleAndSpace := s.computeScaleAndSpace layout area
        if lastLayout.isSome && !isBetterScaleAndSpace lastScaleAndSpace scaleAndSpace then lastLayout
        else
          createBestLayoutFrom s windows area fuel (numRows + 1) (some layout) (some numColumns)
            scaleAndSpace

variable (s : Strategy)

variable (windows : List WindowPreview)

def createBestLayout (area : Area) (fuel : ℕ) :
    Option Layout :=
  createBestLayoutFrom s windows area fuel 1 none none (some (0, 0))

/-! ## What a layout is for -/

structure Strategy.Spacious (layout : Layout) (area : Area) : Prop where
  width : ∀ row ∈ layout.rows, (row.windows.length - 1) * s.columnSpacing < area.width
  height : (layout.rows.length - 1) * s.rowSpacing < area.height

structure Slot.Inside (slot : Slot) (area : Area) : Prop where
  width : 0 ≤ slot.width
  height : 0 ≤ slot.height
  left : area.x ≤ slot.x
  right : slot.x + slot.width ≤ area.x + area.width
  top : area.y ≤ slot.y
  bottom : slot.y + slot.height ≤ area.y + area.height

def Slot.Apart (a b : Slot) : Prop :=
  a.x + a.width ≤ b.x ∨ b.x + b.width ≤ a.x ∨ a.y + a.height ≤ b.y ∨ b.y + b.height ≤ a.y

structure Fits (area : Area) (slots : List Slot) : Prop where
  perm : (slots.map Slot.window).Perm windows
  inside : ∀ slot ∈ slots, slot.Inside area
  apart : slots.Pairwise Slot.Apart
  scale : ∀ slot ∈ slots, ∃ scale ≤ windowPreviewMaximumScale,
    slot.width = slot.window.boundingBox.width * scale ∧
      slot.height = slot.window.boundingBox.height * scale

/-- What a number of rows is to give: each window in exactly one row, and slots in every area that is
larger than the spacing, for the scale that fits the work area. -/
structure Strategy.Lays (layout : Layout) : Prop where
  rows : (layout.rows.flatMap Row.windows).Perm windows
  slots : ∀ workarea area, s.Spacious layout workarea → s.Spacious layout area →
    ∃ scale space slots, s.computeScaleAndSpace layout workarea = some (scale, space) ∧
      s.computeWindowSlots layout scale area = some slots ∧ Fits windows area slots

end WorkspaceLayout
