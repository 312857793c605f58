import GnomeShellMobile.WorkspaceLayout.Strategy
import Mathlib.Algebra.BigOperators.Group.List.Lemmas
import Mathlib.Algebra.Order.BigOperators.Group.List
import Mathlib.Algebra.BigOperators.Ring.List
import Mathlib.Tactic.Linarith
import Mathlib.Tactic.Ring

/-!
# WorkspaceLayout — the rows of a layout

Each window gets into exactly one row, and a row is as wide as its windows and as high as any of them
(`computeLayout_spec`). The search for the best number of rows ends (`createBestLayout_isSome`).
-/

namespace WorkspaceLayout

variable (s : Strategy)

def Strategy.windowWidth (window : WindowPreview) : ℚ :=
  window.boundingBox.width * s.computeWindowScale window

def Strategy.windowHeight (window : WindowPreview) : ℚ :=
  window.boundingBox.height * s.computeWindowScale window

structure Row.Sound (row : Row) : Prop where
  fullWidth : row.fullWidth = (row.windows.map s.windowWidth).sum
  fullHeight : ∀ window ∈ row.windows, s.windowHeight window ≤ row.fullHeight
  nonneg : 0 ≤ row.fullHeight

theorem newRow_sound : newRow.Sound s :=
  ⟨rfl, fun window hwindow => (by cases hwindow), le_refl 0⟩

theorem Row.Sound.push {s : Strategy} {row : Row} (h : row.Sound s) (window : WindowPreview) :
    Row.Sound s {
      fullHeight := max row.fullHeight (s.windowHeight window)
      windows := row.windows ++ [window]
      fullWidth := row.fullWidth + s.windowWidth window } := by
  refine ⟨?_, ?_, le_trans h.nonneg (le_max_left _ _)⟩
  · rw [h.fullWidth, List.map_append, List.sum_append, List.map_singleton, List.sum_singleton]
  · intro other hother
    rcases List.mem_append.mp hother with hother | hother
    · exact le_trans (h.fullHeight other hother) (le_max_left _ _)
    · rw [List.mem_singleton.mp hother]
      exact le_max_right _ _

theorem Row.Sound.heighten {s : Strategy} {row : Row} (h : row.Sound s) (height : ℚ) :
    Row.Sound s { row with fullHeight := max row.fullHeight height } :=
  ⟨h.fullWidth, fun window hwindow => le_trans (h.fullHeight window hwindow) (le_max_left _ _),
    le_trans h.nonneg (le_max_left _ _)⟩

theorem Row.Sound.sort {s : Strategy} {row : Row} (h : row.Sound s) : row.sort.Sound s := by
  have hperm : row.sort.windows.Perm row.windows := List.mergeSort_perm _ _
  refine ⟨?_, fun window hwindow => h.fullHeight window (hperm.mem_iff.mp hwindow), h.nonneg⟩
  exact h.fullWidth.trans (hperm.map s.windowWidth).sum_eq.symm

/-- The windows of the row and those that remain are the windows there were. Induction on them. -/
theorem fillRow_spec (idealRowWidth : ℚ) (last : Bool) {row : Row}
    (h : row.Sound s) (windows : List WindowPreview) :
    (s.fillRow idealRowWidth last row windows).1.Sound s ∧
      (s.fillRow idealRowWidth last row windows).1.windows ++
        (s.fillRow idealRowWidth last row windows).2 = row.windows ++ windows ∧
      (last = true → (s.fillRow idealRowWidth last row windows).2 = []) := by
  induction windows generalizing row with
  | nil =>
    rw [Strategy.fillRow]
    exact ⟨h, rfl, fun _ => rfl⟩
  | cons window windows ih =>
    rw [Strategy.fillRow]
    dsimp only
    split
    · obtain ⟨hsound, happend, hlast⟩ := ih (h.push window)
      refine ⟨hsound, happend.trans ?_, hlast⟩
      rw [List.append_assoc]
      rfl
    · next hkeep =>
      refine ⟨h.heighten _, rfl, fun hlast => ?_⟩
      rw [hlast, Bool.or_true] at hkeep
      exact absurd rfl hkeep

/-- Induction on the number of rows. -/
theorem fillRows_spec (idealRowWidth : ℚ) (numRows : ℕ)
    (windows : List WindowPreview) : (s.fillRows idealRowWidth numRows windows).length = numRows ∧
      (∀ row ∈ s.fillRows idealRowWidth numRows windows, row.Sound s) ∧
      (0 < numRows → (s.fillRows idealRowWidth numRows windows).flatMap Row.windows = windows) := by
  induction numRows generalizing windows with
  | zero =>
    refine ⟨rfl, fun row hrow => ?_, fun hpos => absurd hpos (Nat.lt_irrefl 0)⟩
    cases hrow
  | succ n ih =>
    rw [Strategy.fillRows]
    obtain ⟨hsound, happend, hlast⟩ := fillRow_spec s idealRowWidth (n = 0) (newRow_sound s) windows
    generalize s.fillRow idealRowWidth (n = 0) newRow windows = filled at hsound happend hlast ⊢
    obtain ⟨hlength, hrows, hflat⟩ := ih filled.2
    refine ⟨by rw [List.length_cons, hlength], ?_, fun _ => ?_⟩
    · intro row hrow
      rcases List.mem_cons.mp hrow with rfl | hrow
      · exact hsound
      · exact hrows row hrow
    · rw [List.flatMap_cons]
      cases n with
      | zero =>
        have hnil : filled.2 = [] := hlast (by simp)
        rw [hnil, List.append_nil] at happend
        rw [Strategy.fillRows, List.flatMap_nil, List.append_nil]
        exact happend
      | succ n =>
        rw [hflat (Nat.succ_pos n)]
        exact happend

/-- The widest row is one of the rows. Induction on the rows, from their end. -/
theorem maxRow_spec {rows : List Row} (hne : rows ≠ []) :
    ∃ widest ∈ rows, maxRow rows = some widest ∧ ∀ row ∈ rows, row.fullWidth ≤ widest.fullWidth := by
  induction rows using List.reverseRecOn with
  | nil => exact absurd rfl hne
  | append_singleton rows last ih =>
    rw [maxRow, List.foldl_concat]
    cases rows with
    | nil => exact ⟨last, .head _, rfl, fun row hrow => by rw [List.mem_singleton.mp hrow]⟩
    | cons first rest =>
    obtain ⟨widest, hmem, hmax, hle⟩ := ih (List.cons_ne_nil _ _)
    rw [maxRow] at hmax
    rw [hmax]
    dsimp only
    split
    · next hwider =>
      refine ⟨last, List.mem_append_right _ (.head _), rfl, fun row hrow => ?_⟩
      rcases List.mem_append.mp hrow with hrow | hrow
      · exact le_trans (hle row hrow) (le_of_lt hwider)
      · rw [List.mem_singleton.mp hrow]
    · next hnarrower =>
      refine ⟨widest, List.mem_append_left _ hmem, rfl, fun row hrow => ?_⟩
      rcases List.mem_append.mp hrow with hrow | hrow
      · exact hle row hrow
      · rw [List.mem_singleton.mp hrow]
        exact not_lt.mp hnarrower

structure Layout.Sound (s : Strategy) (windows : List WindowPreview) (layout : Layout) : Prop where
  numRows : layout.rows.length = layout.numRows
  rows : ∀ row ∈ layout.rows, row.Sound s
  perm : (layout.rows.flatMap Row.windows).Perm windows
  widest : ∃ row ∈ layout.rows, layout.gridWidth = row.fullWidth ∧
    layout.maxColumns = row.windows.length
  gridHeight : layout.gridHeight = (layout.rows.map Row.fullHeight).sum

/-- **A layout has each window in exactly one row.** -/
theorem computeLayout_spec (windows : List WindowPreview) {numRows : ℕ}
    (hpos : 0 < numRows) : ∃ layout, s.computeLayout windows numRows = some layout ∧
      layout.numRows = numRows ∧ layout.Sound s windows := by
  rw [Strategy.computeLayout]
  generalize hideal : _ / (numRows : ℚ) = idealRowWidth
  generalize hsorted : (windows.mergeSort fun a b => a.windowCenterY ≤ b.windowCenterY) = sorted
  have hperm : sorted.Perm windows := by
    rw [← hsorted]
    exact List.mergeSort_perm _ _
  obtain ⟨hlength, hsound, hflat⟩ := fillRows_spec s idealRowWidth numRows sorted
  generalize s.fillRows idealRowWidth numRows sorted = filled at hlength hsound hflat ⊢
  have hne : filled.map Row.sort ≠ [] := by
    intro hnil
    rw [List.map_eq_nil_iff] at hnil
    rw [hnil] at hlength
    exact absurd hlength (Nat.ne_of_lt hpos)
  obtain ⟨widest, hwidest, hmax, -⟩ := maxRow_spec hne
  rw [hmax]
  refine ⟨_, rfl, rfl, ?_, ?_, ?_, ⟨widest, hwidest, rfl, rfl⟩, rfl⟩
  · show (filled.map Row.sort).length = numRows
    rw [List.length_map, hlength]
  · intro row hrow
    obtain ⟨row', hrow', rfl⟩ := List.mem_map.mp hrow
    exact (hsound row' hrow').sort
  · show ((filled.map Row.sort).flatMap Row.windows).Perm windows
    rw [List.flatMap_map]
    refine List.Perm.trans ?_ ((hflat hpos) ▸ hperm)
    exact List.Perm.flatMap_left _ fun row _ => List.mergeSort_perm _ _

/-! ## The search for the best number of rows -/

theorem numColumns_eq_one {n numRows : ℕ} (hn : 0 < n) (h : n ≤ numRows) :
    (n + numRows - 1) / numRows = 1 := by
  apply Nat.div_eq_of_lt_le
  · omega
  · omega

/-- The loop stops at the latest with one row more than there are windows. Induction on the fuel. -/
theorem createBestLayoutFrom_isSome {windows : List WindowPreview} (area : Area)
    (hne : 0 < windows.length) (fuel : ℕ) {numRows : ℕ} {lastLayout : Option Layout}
    {lastNumColumns : Option ℕ} (lastScaleAndSpace : Option (ℚ × ℚ)) (hpos : 0 < numRows)
    (hle : numRows ≤ windows.length + 1) (hfuel : windows.length + 1 < numRows + fuel)
    (hcolumns : ∀ n, numRows = n + 1 → 0 < n →
      lastNumColumns = some ((windows.length + n - 1) / n))
    (hlast : lastNumColumns ≠ none → lastLayout.isSome) :
    (createBestLayoutFrom s windows area fuel numRows lastLayout lastNumColumns
      lastScaleAndSpace).isSome := by
  induction fuel generalizing numRows lastLayout lastNumColumns lastScaleAndSpace with
  | zero => omega
  | succ fuel ih =>
    rw [createBestLayoutFrom]
    dsimp only
    split
    · next hstop => exact hlast (by rw [hstop]; exact Option.some_ne_none _)
    · next hgoes =>
      obtain ⟨layout, hlayout, -⟩ := computeLayout_spec s windows hpos
      rw [hlayout]
      show Option.isSome (if _ then lastLayout else _)
      split
      · next hworse =>
        rw [Bool.and_eq_true] at hworse
        exact hworse.1
      · have hnext : numRows ≤ windows.length := by
          by_contra hmore
          -- one column with one row less, and one column now
          obtain ⟨n, rfl⟩ : ∃ n, numRows = n + 1 := ⟨numRows - 1, by omega⟩
          have hbefore := hcolumns n rfl (by omega)
          rw [numColumns_eq_one hne (by omega)] at hbefore hgoes
          exact hgoes hbefore
        refine ih _ (by omega) (by omega) (by omega) (fun n hn _ => ?_) fun _ => rfl
        obtain rfl : numRows = n := by omega
        rfl

/-- **The search ends.** -/
theorem createBestLayout_isSome {windows : List WindowPreview} (hne : windows ≠ [])
    (area : Area) : ∃ layout, createBestLayout s windows area (windows.length + 1) = some layout := by
  have hlength : 0 < windows.length := List.length_pos_of_ne_nil hne
  refine Option.isSome_iff_exists.mp (createBestLayoutFrom_isSome s area hlength _ _ Nat.one_pos
    (by omega) (by omega) (fun n hn hpos => ?_) fun hnone => absurd rfl hnone)
  omega

end WorkspaceLayout
