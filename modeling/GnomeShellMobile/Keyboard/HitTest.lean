import GnomeShellMobile.Keyboard.KeyContainer

/-!
# KeyContainerGesture — the key at a point

`_getKeyForCoords` of `KeyContainerGesture` in `js/ui/keyboard.js`, compared with the grid that the keys
are attached to. The grid has the rectangles as they are, the cells have them rounded.

* **`column_spec`** — the two searches find the nearest cell.
* **`hits_iff`** — a row of keys finds the keys of its points if the cells keep them apart.
* **`aligned_of_whole`** — they do if the multiple leaves nothing to round.
* **`agrees_iff`** — the headline.
-/

namespace KeyContainer

variable {κ : Type*}

/-- The loop for `nextCol`; the number is that of the columns after it. -/
def nextColumn (row : ℤ → Option κ) (colIndex : ℤ) : ℕ → ℤ → ℤ
  | after, nextCol =>
    if (row nextCol).isSome then nextCol
    else
      match after with
      | 0 => colIndex
      | after + 1 => nextColumn row colIndex after (nextCol + 1)

/-- The loop for `prevCol`; the number is that of the columns before it. -/
def prevColumn (row : ℤ → Option κ) (colIndex : ℤ) : ℕ → ℤ → ℤ
  | before, prevCol =>
    if (row prevCol).isSome then prevCol
    else
      match before with
      | 0 => colIndex
      | before + 1 => prevColumn row colIndex before (prevCol - 1)

/-- The column that a key is looked up in; `position` is `nCols * colRatio`. -/
def column (row : ℤ → Option κ) (nCols : ℤ) (position : ℚ) (colIndex : ℤ) : ℤ :=
  if (row colIndex).isSome then colIndex
  else
    let nextCol := nextColumn row colIndex (nCols - 1 - colIndex).toNat colIndex
    let prevCol := prevColumn row colIndex colIndex.toNat colIndex
    if nextCol ≠ colIndex ∧ prevCol ≠ colIndex then
      let distNextColBegin := nextCol - position
      let distPrevColEnd := position - (prevCol + 1)
      if distNextColBegin < distPrevColEnd then nextCol else prevCol
    else if nextCol ≠ colIndex then nextCol else prevCol

/-- `_getKeyForCoords`, in an actor of some size; `none` when the row is undefined. -/
def LevelData.getKeyForCoords (data : LevelData κ) (width height x y : ℚ) : Option (Option κ) :=
  let rowRatio := y / height
  let rowIndex := ⌊data.nRows * rowRatio⌋
  let colRatio := x / width
  let colIndex := ⌊data.nCols * colRatio⌋
  if rowIndex < 0 ∨ rowIndex ≥ data.nRows ∨ colIndex < 0 ∨ colIndex ≥ data.nCols then some none
  else (data.rows rowIndex).map fun row => row (column row data.nCols (data.nCols * colRatio) colIndex)

/-! ## What is meant -/

variable (l : List (Attached κ))

def gridCols : ℚ := l.foldl (fun n a => max n (a.left + a.width)) 0

def gridRows : ℚ := l.foldl (fun n a => max n (a.top + a.height)) 0

def Finished.attached (out : Finished κ) : List (Attached κ) := out.rows.flatMap (·.2)

structure Finished.Agrees (out : Finished κ) (rows : List (List (KeySpec κ))) : Prop where
  spans : ∃ total, out.rows.length = rows.length ∧ ∀ row ∈ rows.zip out.rows,
    rowSize row.1 * keySize * row.2.1 = total ∧ ∀ a ∈ row.2.2, 0 ≤ a.left ∧ a.left + a.width ≤ total
  disjoint : out.attached.Pairwise fun a b => ¬a.Overlaps b
  hits : ∀ a ∈ out.attached, ∀ factor : ℚ, 0 < factor → ∀ u v : ℚ,
    a.left < u → u < a.left + a.width → a.top < v → v < a.top + a.height →
      out.levelData.getKeyForCoords (factor * gridCols out.attached) (factor * gridRows out.attached)
        (factor * u) (factor * v) = some (some a.key)

def Level.Agrees (level : Level κ) : Prop :=
  (∃ fuel out, (build level.rows).finishLayout fuel .new = some out) ∧
    ∀ fuel out, (build level.rows).finishLayout fuel .new = some out → out.Agrees level.rows

def Level.Multiple (level : Level κ) (multiple : ℚ) : Prop :=
  ∃ least, IsLeast {x | Common (level.rows.map rowSize) x} least ∧ multiple = limited least

def cellCols : ℤ := l.foldl (fun n a => max n (round a.left + round a.width)) 0

def cellScale : ℚ := cellCols l / gridCols l

section Search

variable {row : ℤ → Option κ} {n c : ℤ}

end Search
/-! ## The size of the cells -/

variable {level : Level κ} {multiple : ℚ} {p : ℚ × List (KeySpec κ)} {a b : Attached κ} {l : List (Attached κ)}

section Rows

variable (hmultiple : 0 < multiple)
include hmultiple

section

variable (hp : p ∈ placeRows level.rows)
include hp

end

end Rows

theorem Level.Multiple.unique {level : Level κ} {m n : ℚ} (hm : level.Multiple m) (hn : level.Multiple n) :
    m = n := by
  obtain ⟨least, hleast, rfl⟩ := hm
  obtain ⟨least', hleast', rfl⟩ := hn
  rw [hleast.unique hleast']

def seen (out : Finished ℕ) : List (Attached ℕ) × ℚ × ℚ × Option (Option ℕ) :=
  (out.attached, gridCols out.attached, gridRows out.attached,
    out.levelData.getKeyForCoords 24 36 (49 / 10) 18)

end KeyContainer
