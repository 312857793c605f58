import GnomeShellMobile.WorkspaceLayout.Slots
import Mathlib.Tactic.Positivity

/-!
# WorkspaceLayout — when the slots fit into the area

* **`lays_iff`**: all numbers of rows give slots that fit into every area larger than the spacing, and
  the search for the best one ends, exactly when no window is higher than three times the monitor.
-/

namespace WorkspaceLayout

variable {s : Strategy} {area : Area} {windows : List WindowPreview} {layout : Layout} {row : Row}
  {scale : ℚ} {window : WindowPreview}

theorem rowScale_spec {scale additionalVerticalScale : ℚ}
    (hscale : 0 < scale) (hvertical : 0 < additionalVerticalScale) (hwidth : 0 ≤ row.fullWidth)
    (hspace : (row.windows.length - 1) * s.columnSpacing < area.width) :
    minRatio 1 (area.width - (row.windows.length - 1) * s.columnSpacing)
        (row.fullWidth * scale) ≠ none ∧
      0 < s.rowScale scale area additionalVerticalScale row ∧
      s.rowScale scale area additionalVerticalScale row ≤ additionalVerticalScale ∧
      row.fullWidth * scale * s.rowScale scale area additionalVerticalScale row +
        (row.windows.length - 1) * s.columnSpacing ≤ area.width := by
  have hscaled : 0 ≤ row.fullWidth * scale := mul_nonneg hwidth (le_of_lt hscale)
  obtain ⟨r, hr, hpos, -, hle, -⟩ := minRatio_pos one_pos (sub_pos.mpr hspace) hscaled
  have hmin : s.rowScale scale area additionalVerticalScale row = min r additionalVerticalScale := by
    rw [Strategy.rowScale, hr, Option.getD_some]
  rw [hmin, hr]
  refine ⟨Option.some_ne_none _, lt_min hpos hvertical, min_le_right _ _, ?_⟩
  have hmul : row.fullWidth * scale * min r additionalVerticalScale ≤ row.fullWidth * scale * r :=
    mul_le_mul_of_nonneg_left (min_le_left _ _) hscaled
  linarith

theorem extent_cells (h : row.Sound s) (scale additionalScale : ℚ) : Strips.extent s.columnSpacing
      (fun window => window.boundingBox.width * s.cellScale scale additionalScale window)
      row.windows =
    row.fullWidth * scale * additionalScale + (row.windows.length - 1) * s.columnSpacing := by
  have hcell : ∀ window : WindowPreview,
      window.boundingBox.width * s.cellScale scale additionalScale window =
        s.windowWidth window * (scale * additionalScale) := fun window => by
    rw [Strategy.cellScale, Strategy.windowWidth]
    ring
  rw [Strips.extent, List.map_congr_left fun window _ => hcell window, List.sum_map_mul_right,
    ← h.fullWidth]
  ring

theorem fullWidth_nonneg (h : row.Sound s)
    (hwindows : ∀ window ∈ row.windows, 0 ≤ s.computeWindowScale window) : 0 ≤ row.fullWidth := by
  rw [h.fullWidth]
  refine List.sum_nonneg fun width hwidth => ?_
  obtain ⟨window, hwindow, rfl⟩ := List.mem_map.mp hwidth
  exact mul_nonneg (le_of_lt window.boundingBox.width_pos) (hwindows window hwindow)

theorem placed_good {scale additionalVerticalScale y compensation : ℚ} (h : row.Sound s)
    (hwindows : ∀ window ∈ row.windows, 0 ≤ s.computeWindowScale window) (hscale : 0 < scale)
    (hvertical : 0 < additionalVerticalScale)
    (hspace : (row.windows.length - 1) * s.columnSpacing < area.width)
    (htop : area.y ≤ y + compensation) (hbottom : y + compensation +
      row.height scale * s.rowScale scale area additionalVerticalScale row ≤ area.y + area.height) :
    (s.placed scale area additionalVerticalScale row y).Good s scale area compensation := by
  obtain ⟨-, hpos, -, hle⟩ :=
    rowScale_spec hscale hvertical (fullWidth_nonneg h hwindows) hspace
  generalize hr : s.rowScale scale area additionalVerticalScale row = r at hpos hle hbottom
  have hfactor : 0 ≤ scale * r := le_of_lt (mul_pos hscale hpos)
  have hroom : 0 ≤ area.width -
      (row.fullWidth * scale * r + (row.windows.length - 1) * s.columnSpacing) := sub_nonneg.mpr hle
  rw [Strategy.placed, hr]
  refine ⟨?_, ?_, ?_, ?_, htop, hbottom⟩
  · intro window hwindow
    have hwindow := hwindows window hwindow
    show 0 ≤ scale * s.computeWindowScale window * r
    calc 0 ≤ scale * r * s.computeWindowScale window := mul_nonneg hfactor hwindow
      _ = scale * s.computeWindowScale window * r := by ring
  · intro window hwindow
    show window.boundingBox.height * (scale * s.computeWindowScale window * r) ≤
      row.fullHeight * scale * r
    calc window.boundingBox.height * (scale * s.computeWindowScale window * r)
        = s.windowHeight window * (scale * r) := by rw [Strategy.windowHeight]; ring
      _ ≤ row.fullHeight * (scale * r) :=
        mul_le_mul_of_nonneg_right (h.fullHeight window hwindow) hfactor
      _ = row.fullHeight * scale * r := by ring
  · dsimp only
    rw [max_eq_left hroom]
    linarith
  · dsimp only
    rw [max_eq_left hroom, extent_cells h scale r]
    linarith

theorem stack_fits {height spacing total scaled additionalVerticalScale : ℚ}
    (hle : additionalVerticalScale * total ≤ height - spacing)
    (hone : additionalVerticalScale ≤ 1) (htotal : 0 ≤ total)
    (hscaled : scaled ≤ additionalVerticalScale * total)
    (hcases : additionalVerticalScale = 1 ∨ additionalVerticalScale * total = height - spacing) :
    max (height - (total + spacing)) 0 / 2 + (additionalVerticalScale * total - scaled) / 2 +
      (scaled + spacing) ≤ height := by
  rcases hcases with rfl | hfull
  · have hroom : 0 ≤ height - (total + spacing) := by linarith
    rw [max_eq_left hroom]
    linarith
  · have hsmaller : additionalVerticalScale * total ≤ 1 * total :=
      mul_le_mul_of_nonneg_right hone htotal
    have hnone : height - (total + spacing) ≤ 0 := by linarith
    rw [max_eq_right hnone]
    linarith

/-- What the rows lose by their additional scales. Induction on the rows. -/
theorem sum_compensation (additionalVerticalScale : ℚ) (height rowScale : Row → ℚ)
    (rows : List Row) :
    (rows.map fun row => (additionalVerticalScale - rowScale row) * height row).sum =
      additionalVerticalScale * (rows.map height).sum -
        (rows.map fun row => height row * rowScale row).sum := by
  induction rows with
  | nil => simp
  | cons row rows ih =>
    simp only [List.map_cons, List.sum_cons, ih]
    ring

theorem fits_of_good {scale compensation : ℚ} {placedRows : List PlacedRow} (single : Bool)
    (hperm : (placedRows.flatMap fun placed => placed.row.windows).Perm windows)
    (hgood : ∀ placed ∈ placedRows, placed.Good s scale area compensation)
    (hbelow : placedRows.Pairwise fun p q => p.y + p.height * p.additionalScale ≤ q.y) :
    Fits windows area (placedRows.flatMap fun placed =>
      s.rowSlots scale single placed compensation placed.x placed.row.windows) := by
  refine ⟨?_, ?_, ?_, ?_⟩
  · rw [List.map_flatMap]
    simp only [PlacedRow.Good.map_window]
    exact hperm
  · intro slot hslot
    obtain ⟨placed, hplaced, hslot⟩ := List.mem_flatMap.mp hslot
    exact (hgood placed hplaced).inside hslot
  · rw [List.pairwise_flatMap]
    refine ⟨fun placed hplaced => (hgood placed hplaced).apart single, ?_⟩
    refine List.Pairwise.imp_of_mem (fun {p q} hp hq hpq => ?_) hbelow
    intro a ha b hb
    obtain ⟨_, _, _, _, hin, _⟩ := (hgood p hp).exists_cell ha
    obtain ⟨_, _, _, _, hin', _⟩ := (hgood q hq).exists_cell hb
    have hbottom := hin.bottom
    have htop := hin'.top
    -- the first row ends above the second one
    right; right; left
    dsimp only at hbottom htop
    linarith
  · intro slot hslot
    obtain ⟨placed, hplaced, hslot⟩ := List.mem_flatMap.mp hslot
    exact (hgood placed hplaced).maximum hslot

variable (s)

def Strategy.placedRows (scale : ℚ) (area : Area) (vertical top : ℚ)
    (rows : List Row) : List PlacedRow :=
  (Strips.place s.rowSpacing (fun row => row.height scale * s.rowScale scale area vertical row) 0
    rows).map fun p => s.placed scale area vertical p.2 (top + p.1)

theorem placedRows_windows (scale : ℚ) (area : Area) (vertical top : ℚ)
    (rows : List Row) :
    ((s.placedRows scale area vertical top rows).flatMap fun placed => placed.row.windows) =
      rows.flatMap Row.windows := by
  rw [Strategy.placedRows, List.flatMap_map, List.flatMap_def, List.flatMap_def]
  exact congrArg List.flatten (Strips.place_map Row.windows _ _ _ rows)

theorem placedRows_compensation (scale : ℚ) (area : Area) (vertical top : ℚ)
    (rows : List Row) :
    ((s.placedRows scale area vertical top rows).map PlacedRow.compensation).sum =
      vertical * (rows.map (Row.height · scale)).sum -
        (rows.map fun row => row.height scale * s.rowScale scale area vertical row).sum := by
  rw [Strategy.placedRows, List.map_map, ← sum_compensation vertical (Row.height · scale)]
  exact congrArg List.sum (Strips.place_map
    (fun row => (vertical - s.rowScale scale area vertical row) * row.height scale) _ _ _ rows)

variable {s}

theorem mem_placedRows {vertical top : ℚ} {rows : List Row}
    (hsize : ∀ row ∈ rows, 0 ≤ row.height scale * s.rowScale scale area vertical row)
    {placed : PlacedRow} (h : placed ∈ s.placedRows scale area vertical top rows) :
    ∃ row ∈ rows, ∃ y, placed = s.placed scale area vertical row (top + y) ∧ 0 ≤ y ∧
      y + row.height scale * s.rowScale scale area vertical row ≤
        (rows.map fun row => row.height scale * s.rowScale scale area vertical row).sum +
          (rows.length - 1) * s.rowSpacing := by
  obtain ⟨p, hp, rfl⟩ := List.mem_map.mp h
  obtain ⟨hstart, hend⟩ := Strips.place_bounds s.rowSpacing_nonneg hsize hp
  rw [Strips.extent, zero_add] at hend
  exact ⟨p.2, Strips.mem_of_mem_place hp, p.1, rfl, hstart, hend⟩

theorem placedRows_below {vertical : ℚ} (top : ℚ) {rows : List Row}
    (hsize : ∀ row ∈ rows, 0 ≤ row.height scale * s.rowScale scale area vertical row) :
    (s.placedRows scale area vertical top rows).Pairwise
      fun p q => p.y + p.height * p.additionalScale ≤ q.y := by
  rw [Strategy.placedRows, List.pairwise_map]
  refine (Strips.place_pairwise s.rowSpacing_nonneg hsize).imp fun {p q} hpq => ?_
  show top + p.1 + p.2.height scale * s.rowScale scale area vertical p.2 ≤ top + q.1
  linarith

/-- **The slots fit**, if no window scale is negative. -/
theorem computeWindowSlots_fits (h : layout.Sound s windows)
    (hwindows : ∀ window ∈ windows, 0 ≤ s.computeWindowScale window) (hscale : 0 < scale)
    (hspace : s.Spacious layout area) :
    ∃ slots, s.computeWindowSlots layout scale area = some slots ∧ Fits windows area slots := by
  have hscales : ∀ row ∈ layout.rows, ∀ window ∈ row.windows, 0 ≤ s.computeWindowScale window :=
    fun row hrow window hwindow =>
      hwindows window (h.perm.mem_iff.mp (List.mem_flatMap.mpr ⟨row, hrow, hwindow⟩))
  have hheight : ∀ row ∈ layout.rows, 0 ≤ row.height scale := fun row hrow =>
    mul_nonneg (h.rows row hrow).nonneg (le_of_lt hscale)
  have htotal : 0 ≤ (layout.rows.map (Row.height · scale)).sum := by
    refine List.sum_nonneg fun height hmem => ?_
    obtain ⟨row, hrow, rfl⟩ := List.mem_map.mp hmem
    exact hheight row hrow
  obtain ⟨vertical, hvertical, hpos, hone, hle, hcases⟩ :=
    minRatio_pos one_pos (sub_pos.mpr hspace.height) htotal
  have hrow : ∀ row ∈ layout.rows, _ := fun row hmem =>
    rowScale_spec hscale hpos (fullWidth_nonneg (h.rows row hmem) (hscales row hmem))
      (hspace.width row hmem)
  have hsize : ∀ row ∈ layout.rows, 0 ≤ row.height scale * s.rowScale scale area vertical row :=
    fun row hmem => mul_nonneg (hheight row hmem) (le_of_lt (hrow row hmem).2.1)
  have hlost : 0 ≤ (layout.rows.map fun row =>
      (vertical - s.rowScale scale area vertical row) * row.height scale).sum := by
    refine List.sum_nonneg fun lost hmem => ?_
    obtain ⟨row, hmem', rfl⟩ := List.mem_map.mp hmem
    exact mul_nonneg (sub_nonneg.mpr (hrow row hmem').2.2.1) (hheight row hmem')
  rw [sum_compensation vertical (Row.height · scale)] at hlost
  have hstack := stack_fits hle hone htotal (sub_nonneg.mp hlost) hcases
  generalize htop : max (area.height - ((layout.rows.map (Row.height · scale)).sum +
    (layout.rows.length - 1) * s.rowSpacing)) 0 / 2 = centered at hstack
  have hcentered : 0 ≤ centered := by
    rw [← htop]
    exact div_nonneg (le_max_right _ _) zero_le_two
  have hplaced : s.placeRows scale area vertical (area.y + centered) 0 layout.rows =
      some (s.placedRows scale area vertical (area.y + centered) layout.rows) :=
    placeRows_eq vertical _ 0 fun row hmem => (hrow row hmem).1
  rw [Strategy.computeWindowSlots, hvertical]
  dsimp only
  rw [htop, hplaced]
  refine ⟨_, rfl, fits_of_good _ ?_ ?_ (placedRows_below _ hsize)⟩
  · rw [placedRows_windows]
    exact h.perm
  · intro placed hmem
    obtain ⟨row, hrows, y, rfl, hstart, hend⟩ := mem_placedRows hsize hmem
    rw [placedRows_compensation]
    exact placed_good (h.rows row hrows) (hscales row hrows) hscale hpos (hspace.width row hrows)
      (by linarith) (by linarith)

theorem computeScaleAndSpace_eq {horizontal scale : ℚ}
    (hhorizontal : minRatio windowPreviewMaximumScale
      (area.width - (layout.maxColumns - 1) * s.columnSpacing) layout.gridWidth = some horizontal)
    (hvertical : minRatio horizontal (area.height - (layout.numRows - 1) * s.rowSpacing)
      layout.gridHeight = some scale) :
    ∃ space, s.computeScaleAndSpace layout area = some (scale, space) := by
  rw [Strategy.computeScaleAndSpace, hhorizontal, Option.bind_some, hvertical]
  exact ⟨_, rfl⟩

theorem computeScaleAndSpace_pos (h : layout.Sound s windows)
    (hwindows : ∀ window ∈ windows, 0 ≤ s.computeWindowScale window)
    (hspace : s.Spacious layout area) :
    ∃ scale space, s.computeScaleAndSpace layout area = some (scale, space) ∧ 0 < scale := by
  obtain ⟨row, hrow, hgrid, hcolumns⟩ := h.widest
  have hwidth : 0 ≤ layout.gridWidth := by
    rw [hgrid]
    exact fullWidth_nonneg (h.rows row hrow) fun window hwindow =>
      hwindows window (h.perm.mem_iff.mp (List.mem_flatMap.mpr ⟨row, hrow, hwindow⟩))
  have hheight : 0 ≤ layout.gridHeight := by
    rw [h.gridHeight]
    refine List.sum_nonneg fun height hmem => ?_
    obtain ⟨row', hrow', rfl⟩ := List.mem_map.mp hmem
    exact (h.rows row' hrow').nonneg
  have hspacedWidth := sub_pos.mpr (hspace.width row hrow)
  have hspacedHeight := sub_pos.mpr hspace.height
  rw [← hcolumns] at hspacedWidth
  rw [h.numRows] at hspacedHeight
  obtain ⟨horizontal, hh, hhpos, -⟩ := minRatio_pos maximumScale_pos hspacedWidth hwidth
  obtain ⟨scale, hs, hspos, -⟩ := minRatio_pos hhpos hspacedHeight hheight
  obtain ⟨space, heq⟩ := computeScaleAndSpace_eq hh hs
  exact ⟨scale, space, heq, hspos⟩

theorem computeWindowScale_nonneg_iff (s : Strategy) (window : WindowPreview) :
    0 ≤ s.computeWindowScale window ↔ window.boundingBox.height ≤ 3 * s.monitorHeight := by
  have hpos := s.monitorHeight_pos
  rw [Strategy.computeWindowScale, lerp, ← div_le_iff₀ hpos]
  constructor <;> intro h <;> linarith

theorem lays_of_low (h : layout.Sound s windows)
    (hlow : ∀ window ∈ windows, window.boundingBox.height ≤ 3 * s.monitorHeight) :
    s.Lays windows layout := by
  have hwindows : ∀ window ∈ windows, 0 ≤ s.computeWindowScale window := fun window hwindow =>
    (computeWindowScale_nonneg_iff s window).mpr (hlow window hwindow)
  refine ⟨h.perm, fun workarea area hworkarea harea => ?_⟩
  obtain ⟨scale, space, heq, hpos⟩ := computeScaleAndSpace_pos h hwindows hworkarea
  obtain ⟨slots, hslots, hfits⟩ := computeWindowSlots_fits h hwindows hpos harea
  exact ⟨scale, space, slots, heq, hslots, hfits⟩

/-! ## A window with a negative scale -/

theorem exists_slot_of_single {slots : List Slot} (hrows : layout.rows = [row])
    (h : s.computeWindowSlots layout scale area = some slots) :
    ∃ vertical horizontal, minRatio 1 area.height (row.height scale) = some vertical ∧
      minRatio 1 (area.width - (row.windows.length - 1) * s.columnSpacing)
        (row.fullWidth * scale) = some horizontal ∧
      ∀ window ∈ row.windows, ∃ slot ∈ slots,
        slot.width = window.boundingBox.width *
          min (s.cellScale scale (min horizontal vertical) window) windowPreviewMaximumScale ∧
        slot.height = window.boundingBox.height *
          min (s.cellScale scale (min horizontal vertical) window) windowPreviewMaximumScale := by
  rw [Strategy.computeWindowSlots, hrows] at h
  have hsum : ([row].map (Row.height · scale)).sum = row.height scale := by simp
  have hspacing : area.height - (([row].length : ℚ) - 1) * s.rowSpacing = area.height := by simp
  rw [hsum, hspacing] at h
  cases hvertical : minRatio 1 area.height (row.height scale) with
  | none =>
    rw [hvertical] at h
    cases h
  | some vertical =>
  rw [hvertical] at h
  cases hhorizontal : minRatio 1 (area.width - (row.windows.length - 1) * s.columnSpacing)
      (row.fullWidth * scale) with
  | none =>
    have hwidth : s.rowWidth row scale - (row.windows.length - 1) * s.columnSpacing =
        row.fullWidth * scale := by
      rw [Strategy.rowWidth]
      ring
    simp only [Strategy.placeRows, hwidth, hhorizontal] at h
    cases h
  | some horizontal =>
  dsimp only at h
  rw [placeRows_eq vertical _ 0 fun row' hrow' => by
    rw [List.mem_singleton.mp hrow', hhorizontal]
    exact Option.some_ne_none _] at h
  obtain rfl := Option.some.inj h
  have hscale : s.rowScale scale area vertical row = min horizontal vertical := by
    rw [Strategy.rowScale, hhorizontal, Option.getD_some]
  refine ⟨vertical, horizontal, rfl, rfl, fun window hwindow => ?_⟩
  rw [← hscale, Strips.place, Strips.place, List.map_singleton]
  dsimp only
  rw [List.flatMap_singleton]
  exact exists_mem_rowSlots s scale _ (s.placed scale area vertical row _) _ _ hwindow

theorem exists_single (h : layout.Sound s windows) (hone : layout.numRows = 1) :
    ∃ row, layout.rows = [row] ∧ row.Sound s ∧ row.windows.Perm windows ∧
      layout.gridWidth = row.fullWidth ∧ layout.gridHeight = row.fullHeight ∧
      layout.maxColumns = row.windows.length := by
  obtain ⟨row, hrows⟩ := List.length_eq_one_iff.mp (h.numRows.trans hone)
  obtain ⟨widest, hwidest, hgrid, hcolumns⟩ := h.widest
  rw [hrows] at hwidest
  obtain rfl := List.mem_singleton.mp hwidest
  refine ⟨widest, hrows, h.rows widest (by rw [hrows]; exact .head _), ?_, hgrid, ?_, hcolumns⟩
  · have hperm := h.perm
    rwa [hrows, List.flatMap_singleton] at hperm
  · rw [h.gridHeight, hrows]
    simp

theorem sum_windowWidth_nonpos (h : ∀ window ∈ windows, s.computeWindowScale window ≤ 0) :
    (windows.map s.windowWidth).sum ≤ 0 := by
  induction windows with
  | nil => exact le_refl 0
  | cons window windows ih =>
    have hfirst : s.windowWidth window ≤ 0 :=
      mul_nonpos_of_nonneg_of_nonpos (le_of_lt window.boundingBox.width_pos) (h window (.head _))
    have hrest := ih fun other hother => h other (.tail _ hother)
    rw [List.map_cons, List.sum_cons]
    linarith

theorem fullWidth_neg (h : row.Sound s) (hflat : row.fullHeight = 0) (hwindow : window ∈ row.windows)
    (hneg : s.computeWindowScale window < 0) : row.fullWidth < 0 := by
  have hscales : ∀ other ∈ row.windows, s.computeWindowScale other ≤ 0 := fun other hother => by
    have hheight := h.fullHeight other hother
    rw [hflat, Strategy.windowHeight] at hheight
    by_contra hpos
    have hmul := mul_pos other.boundingBox.height_pos (not_le.mp hpos)
    linarith
  obtain ⟨before, after, heq⟩ := List.append_of_mem hwindow
  rw [heq] at hscales
  have hbefore := sum_windowWidth_nonpos fun other hother =>
    hscales other (List.mem_append_left _ hother)
  have hafter := sum_windowWidth_nonpos fun other hother =>
    hscales other (List.mem_append_right _ (.tail _ hother))
  have hwidth : s.windowWidth window < 0 := mul_neg_of_pos_of_neg window.boundingBox.width_pos hneg
  rw [h.fullWidth, heq, List.map_append, List.map_cons, List.sum_append, List.sum_cons]
  linarith

theorem minRatio_neg {m a b : ℚ} (hm : 0 < m) (ha : 0 < a) (hb : b < 0) :
    minRatio m a b = some (a / b) := by
  have hdiv : a / b < 0 := div_neg_of_pos_of_neg ha hb
  rw [minRatio, if_neg (ne_of_lt hb), min_eq_right (by linarith)]

theorem minRatio_of_neg {m a b : ℚ} (hm : m < 0) (ha : 0 < a) (hb : 0 ≤ b) :
    minRatio m a b = some m := by
  have hdiv : 0 ≤ a / b := div_nonneg (le_of_lt ha) hb
  have hmin : min m (a / b) = m := min_eq_left (by linarith)
  rw [minRatio, if_pos ha, hmin, ite_self]

theorem cellScale_neg {scale additionalScale : ℚ}
    (hpos : 0 < scale * additionalScale) (hneg : s.computeWindowScale window < 0) :
    s.cellScale scale additionalScale window < 0 := by
  calc s.cellScale scale additionalScale window
      = scale * additionalScale * s.computeWindowScale window := by
        rw [Strategy.cellScale]
        ring
    _ < 0 := mul_neg_of_pos_of_neg hpos hneg

theorem scale_nonneg_of_inside {slot : Slot} (h : slot.Inside area)
    (hwidth : slot.width = window.boundingBox.width * min scale windowPreviewMaximumScale) :
    0 ≤ scale := by
  by_contra hneg
  have hmin : min scale windowPreviewMaximumScale < 0 := lt_of_le_of_lt (min_le_left _ _) (not_le.mp hneg)
  have hnegative := mul_neg_of_pos_of_neg window.boundingBox.width_pos hmin
  have hnonneg := h.width
  linarith

/-- **A window that is too high has no slot**: with one row, in some area. -/
theorem not_lays_of_high (h : layout.Sound s windows) (hone : layout.numRows = 1)
    (hwindow : window ∈ windows) (hneg : s.computeWindowScale window < 0) :
    ¬s.Lays windows layout := by
  intro hlays
  obtain ⟨row, hrows, hsound, hperm, hgrid, hheight, hcolumns⟩ := exists_single h hone
  have hmem : window ∈ row.windows := hperm.mem_iff.mpr hwindow
  -- an area that leaves one pixel beside the spacing, and is lower than the window would be
  let tall := window.boundingBox.height *
    min (s.computeWindowScale window / row.fullWidth) windowPreviewMaximumScale
  let area : Area := ⟨0, 0, (row.windows.length - 1) * s.columnSpacing + 1,
    if 0 < tall then tall / 2 else 1⟩
  have hareaHeight : 0 < area.height := by
    show 0 < if 0 < tall then tall / 2 else 1
    split
    · next htall => exact half_pos htall
    · exact one_pos
  have hareaWidth : area.width - (row.windows.length - 1) * s.columnSpacing = 1 := by
    show (row.windows.length - 1) * s.columnSpacing + 1 - _ = (1 : ℚ)
    ring
  have hspacious : s.Spacious layout area := by
    refine ⟨fun row' hrow' => ?_, ?_⟩
    · rw [hrows] at hrow'
      rw [List.mem_singleton.mp hrow']
      linarith
    · rw [hrows]
      simpa using hareaHeight
  obtain ⟨scale, space, slots, hscale, hslots, hfits⟩ := hlays.slots area area hspacious hspacious
  obtain ⟨vertical, horizontal, hvertical, hhorizontal, hsizes⟩ := exists_slot_of_single hrows hslots
  obtain ⟨slot, hslot, hslotWidth, hslotHeight⟩ := hsizes window hmem
  have hinside := hfits.inside slot hslot
  have hcell := scale_nonneg_of_inside hinside hslotWidth
  rw [hareaWidth] at hhorizontal
  -- the scale of the layout, from the same width and height
  have hunique : ∀ first scale', minRatio windowPreviewMaximumScale 1 row.fullWidth = some first →
      minRatio first area.height row.fullHeight = some scale' → scale = scale' := by
    intro first scale' hfirst hscale'
    rw [← hareaWidth, ← hcolumns, ← hgrid] at hfirst
    have hvspacing : area.height - (layout.numRows - 1) * s.rowSpacing = area.height := by
      rw [hone]
      simp
    rw [← hvspacing, ← hheight] at hscale'
    obtain ⟨space', heq⟩ := computeScaleAndSpace_eq hfirst hscale'
    exact congrArg Prod.fst (Option.some.inj (hscale.symm.trans heq))
  cases lt_or_ge row.fullWidth 0 with
  | inr hwide =>
    -- the row has some height, all ratios are positive
    have hhigh : 0 < row.fullHeight := lt_of_le_of_ne hsound.nonneg fun hflat =>
      absurd (fullWidth_neg hsound hflat.symm hmem hneg) (not_lt.mpr hwide)
    obtain ⟨first, hfirst, hfirst_pos, -⟩ := minRatio_pos maximumScale_pos one_pos hwide
    obtain ⟨scale', hscale', hpos, -⟩ := minRatio_pos hfirst_pos hareaHeight (le_of_lt hhigh)
    obtain rfl := hunique first scale' hfirst hscale'
    obtain ⟨v, hv, hv_pos, -⟩ := minRatio_pos one_pos hareaHeight (le_of_lt (mul_pos hhigh hpos))
    obtain ⟨w, hw, hw_pos, -⟩ := minRatio_pos one_pos one_pos (mul_nonneg hwide (le_of_lt hpos))
    obtain rfl := Option.some.inj (hvertical.symm.trans hv)
    obtain rfl := Option.some.inj (hhorizontal.symm.trans hw)
    have hcell_neg := cellScale_neg (mul_pos hpos (lt_min hw_pos hv_pos)) hneg
    linarith
  | inl hnarrow =>
    -- the scale of the layout is negative
    have hinv : 1 / row.fullWidth < 0 := div_neg_of_pos_of_neg one_pos hnarrow
    have hfirst := minRatio_neg maximumScale_pos one_pos hnarrow
    have hscale' : minRatio (1 / row.fullWidth) area.height row.fullHeight =
        some (1 / row.fullWidth) := minRatio_of_neg hinv hareaHeight hsound.nonneg
    obtain rfl := hunique _ _ hfirst hscale'
    have hwidth : row.fullWidth * (1 / row.fullWidth) = 1 := by
      rw [one_div, mul_inv_cancel₀ (ne_of_lt hnarrow)]
    rw [hwidth, minRatio, if_neg one_ne_zero, div_one, min_self] at hhorizontal
    obtain rfl := Option.some.inj hhorizontal
    cases lt_or_eq_of_le hsound.nonneg with
    | inl hhigh =>
      have hheight_neg : row.height (1 / row.fullWidth) < 0 := mul_neg_of_pos_of_neg hhigh hinv
      rw [minRatio_neg one_pos hareaHeight hheight_neg] at hvertical
      obtain rfl := Option.some.inj hvertical
      have hvertical_neg := div_neg_of_pos_of_neg hareaHeight hheight_neg
      rw [min_eq_right (by linarith)] at hcell
      have hcell_neg := cellScale_neg (mul_pos_of_neg_of_neg hinv hvertical_neg) hneg
      linarith
    | inr hflat =>
      -- all window scales are negative or zero, and the slot is higher than the area
      have hzero : row.height (1 / row.fullWidth) = 0 := by
        rw [Row.height, ← hflat, zero_mul]
      rw [hzero, minRatio, if_pos rfl, if_pos hareaHeight] at hvertical
      obtain rfl := Option.some.inj hvertical
      have hcellScale : s.cellScale (1 / row.fullWidth) (min 1 1) window =
          s.computeWindowScale window / row.fullWidth := by
        rw [Strategy.cellScale, min_self]
        ring
      rw [hcellScale] at hslotHeight
      have hslotTall : slot.height = tall := hslotHeight
      have htall : 0 < tall := by
        have hpos : 0 < s.computeWindowScale window / row.fullWidth :=
          div_pos_of_neg_of_neg hneg hnarrow
        exact mul_pos window.boundingBox.height_pos (lt_min hpos maximumScale_pos)
      have harea : area.height = tall / 2 := if_pos htall
      have htop : 0 ≤ slot.y := hinside.top
      have hbottom : slot.y + slot.height ≤ 0 + area.height := hinside.bottom
      linarith

/-- **When the slots fit.** -/
theorem lays_iff (s : Strategy) {windows : List WindowPreview} (hne : windows ≠ []) :
    ((∀ numRows, 1 ≤ numRows → ∃ layout, s.computeLayout windows numRows = some layout ∧
        s.Lays windows layout) ∧
      ∀ area, ∃ fuel layout, createBestLayout s windows area fuel = some layout) ↔
    ∀ window ∈ windows, window.boundingBox.height ≤ 3 * s.monitorHeight := by
  constructor
  · rintro ⟨hlays, -⟩ window hwindow
    obtain ⟨layout, heq, hlayout⟩ := hlays 1 (le_refl 1)
    obtain ⟨layout', heq', hone, hsound⟩ := computeLayout_spec s windows Nat.one_pos
    obtain rfl := Option.some.inj (heq.symm.trans heq')
    rw [← computeWindowScale_nonneg_iff]
    by_contra hneg
    exact not_lays_of_high hsound hone hwindow (not_le.mp hneg) hlayout
  · intro hlow
    refine ⟨fun numRows hpos => ?_, fun area => ⟨_, createBestLayout_isSome s hne area⟩⟩
    obtain ⟨layout, heq, -, hsound⟩ := computeLayout_spec s windows hpos
    exact ⟨layout, heq, lays_of_low hsound hlow⟩

def phone : Strategy := ⟨360, 20, 20, by decide, by decide, by decide⟩

def screen : Area := ⟨0, 0, 720, 360⟩

def dialog : WindowPreview := ⟨⟨60, 20, 300, 200, by decide, by decide⟩⟩

def browser : WindowPreview := ⟨⟨0, 0, 720, 900, by decide, by decide⟩⟩

theorem tallWindow_width_pos : (0 : ℚ) < 100 := by decide

def tallWindow : WindowPreview := ⟨⟨0, 0, 100, 1440, tallWindow_width_pos, by decide⟩⟩

theorem lays_phone : (∀ numRows, 1 ≤ numRows → ∃ layout,
        phone.computeLayout [dialog, browser, dialog] numRows = some layout ∧
        phone.Lays [dialog, browser, dialog] layout) ∧
      ∀ area, ∃ fuel layout,
        createBestLayout phone [dialog, browser, dialog] area fuel = some layout :=
  (lays_iff phone (List.cons_ne_nil _ _)).mpr (by decide +kernel)

/-- The only slot is 1368 high. -/
theorem not_fits_tallWindow :
    ∃ layout scale space slots, phone.computeLayout [tallWindow] 1 = some layout ∧
      phone.Spacious layout screen ∧
      phone.computeScaleAndSpace layout screen = some (scale, space) ∧
      phone.computeWindowSlots layout scale screen = some slots ∧
      ¬Fits [tallWindow] screen slots := by
  have hend : (phone.computeLayout [tallWindow] 1).bind (fun layout =>
      (phone.computeScaleAndSpace layout screen).bind fun scaleAndSpace =>
        (phone.computeWindowSlots layout scaleAndSpace.1 screen).map fun slots =>
          decide ((∀ row ∈ layout.rows,
              ((row.windows.length : ℚ) - 1) * phone.columnSpacing < screen.width) ∧
            ((layout.rows.length : ℚ) - 1) * phone.rowSpacing < screen.height ∧
            ∃ slot ∈ slots, slot.y < screen.y)) = some true := by decide +kernel
  obtain ⟨layout, hlayout, hrest⟩ := Option.bind_eq_some_iff.mp hend
  obtain ⟨⟨scale, space⟩, hscale, hslots⟩ := Option.bind_eq_some_iff.mp hrest
  obtain ⟨slots, hslots, hstate⟩ := Option.map_eq_some_iff.mp hslots
  obtain ⟨hwidth, hheight, slot, hslot, habove⟩ := of_decide_eq_true hstate
  refine ⟨layout, scale, space, slots, hlayout, ⟨hwidth, hheight⟩, hscale, hslots, fun hfits => ?_⟩
  exact absurd (hfits.inside slot hslot).top (not_le.mpr habove)

end WorkspaceLayout
