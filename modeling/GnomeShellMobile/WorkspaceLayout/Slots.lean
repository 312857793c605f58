import GnomeShellMobile.WorkspaceLayout.Rows
import GnomeShellMobile.Strips.Basic

/-!
# WorkspaceLayout — the slots of the windows

Under window scales that are not negative, the cells of a row are a strip within the area
(`Placed.cells`), the rows are another one (`computeWindowSlots_fits`), and each slot lies in its cell.
-/

namespace WorkspaceLayout

theorem minRatio_pos {m a b : ℚ} (hm : 0 < m) (ha : 0 < a) (hb : 0 ≤ b) :
    ∃ r, minRatio m a b = some r ∧ 0 < r ∧ r ≤ m ∧ r * b ≤ a ∧ (r = m ∨ r * b = a) := by
  rw [minRatio]
  cases decEq b 0 with
  | isTrue hzero =>
    rw [if_pos hzero, if_pos ha]
    exact ⟨m, rfl, hm, le_refl m, by rw [hzero, mul_zero]; exact le_of_lt ha, .inl rfl⟩
  | isFalse hne =>
    rw [if_neg hne]
    have hpos : 0 < b := lt_of_le_of_ne hb (Ne.symm hne)
    have hdiv : a / b * b = a := div_mul_cancel₀ a hne
    refine ⟨min m (a / b), rfl, lt_min hm (div_pos ha hpos), min_le_left _ _, ?_, ?_⟩
    · calc min m (a / b) * b ≤ a / b * b := mul_le_mul_of_nonneg_right (min_le_right _ _) hb
        _ = a := hdiv
    · rcases min_choice m (a / b) with h | h
      · exact .inl h
      · exact .inr (by rw [h, hdiv])

theorem maximumScale_pos : 0 < windowPreviewMaximumScale := by
  rw [windowPreviewMaximumScale]
  norm_num

/-! ## The slots of a row -/

variable (s : Strategy)

variable (scale : ℚ)

theorem rowSlots_eq (single : Bool) (placed : PlacedRow)
    (compensation x : ℚ) (windows : List WindowPreview) :
    s.rowSlots scale single placed compensation x windows =
      (Strips.place s.columnSpacing
        (fun window => window.boundingBox.width * s.cellScale scale placed.additionalScale window)
        x windows).map fun p => s.slot scale single placed compensation p.1 p.2 := by
  induction windows generalizing x with
  | nil => rfl
  | cons window windows ih =>
    rw [Strategy.rowSlots, Strips.place, List.map_cons]
    dsimp only
    rw [ih]

theorem exists_mem_rowSlots (single : Bool) (placed : PlacedRow)
    (compensation x : ℚ) {windows : List WindowPreview} {window : WindowPreview}
    (h : window ∈ windows) : ∃ slot ∈ s.rowSlots scale single placed compensation x windows,
      slot.width = window.boundingBox.width *
        min (s.cellScale scale placed.additionalScale window) windowPreviewMaximumScale ∧
      slot.height = window.boundingBox.height *
        min (s.cellScale scale placed.additionalScale window) windowPreviewMaximumScale := by
  induction windows generalizing x with
  | nil => cases h
  | cons first windows ih =>
    rw [Strategy.rowSlots]
    rcases List.mem_cons.mp h with rfl | h
    · exact ⟨_, .head _, rfl, rfl⟩
    · obtain ⟨slot, hslot, hsize⟩ := ih _ h
      exact ⟨slot, .tail _ hslot, hsize⟩

theorem slot_within {s : Strategy} {scale : ℚ} {placed : PlacedRow} {window : WindowPreview}
    (single : Bool) (compensation x : ℚ)
    (hscale : 0 ≤ s.cellScale scale placed.additionalScale window)
    (hheight : window.boundingBox.height * s.cellScale scale placed.additionalScale window ≤
      placed.height * placed.additionalScale) :
    (s.slot scale single placed compensation x window).Inside {
      x := x
      y := placed.y + compensation
      width := window.boundingBox.width * s.cellScale scale placed.additionalScale window
      height := placed.height * placed.additionalScale } := by
  have hwidth_pos := window.boundingBox.width_pos
  have hheight_pos := window.boundingBox.height_pos
  generalize hcell : s.cellScale scale placed.additionalScale window = cellScale at hscale hheight
  have hmax := maximumScale_pos
  have hclone : 0 ≤ min cellScale windowPreviewMaximumScale := le_min hscale (le_of_lt hmax)
  have hle : min cellScale windowPreviewMaximumScale ≤ cellScale := min_le_left _ _
  have hcloneWidth : window.boundingBox.width * min cellScale windowPreviewMaximumScale ≤
      window.boundingBox.width * cellScale := mul_le_mul_of_nonneg_left hle (le_of_lt hwidth_pos)
  have hcloneHeight : window.boundingBox.height * min cellScale windowPreviewMaximumScale ≤
      window.boundingBox.height * cellScale := mul_le_mul_of_nonneg_left hle (le_of_lt hheight_pos)
  have hcloneWidth_nonneg := mul_nonneg (le_of_lt hwidth_pos) hclone
  have hcloneHeight_nonneg := mul_nonneg (le_of_lt hheight_pos) hclone
  rw [Strategy.slot, hcell]
  cases single with
  | true => constructor <;> simp only [if_true] <;> linarith
  | false => constructor <;> simp only [Bool.false_eq_true, if_false] <;> linarith

structure PlacedRow.Good (area : Area) (compensation : ℚ)
    (placed : PlacedRow) : Prop where
  cellScale : ∀ window ∈ placed.row.windows, 0 ≤ s.cellScale scale placed.additionalScale window
  cellHeight : ∀ window ∈ placed.row.windows,
    window.boundingBox.height * s.cellScale scale placed.additionalScale window ≤
      placed.height * placed.additionalScale
  left : area.x ≤ placed.x
  right : placed.x + Strips.extent s.columnSpacing
    (fun window => window.boundingBox.width * s.cellScale scale placed.additionalScale window)
    placed.row.windows ≤ area.x + area.width
  top : area.y ≤ placed.y + compensation
  bottom : placed.y + compensation + placed.height * placed.additionalScale ≤ area.y + area.height

namespace PlacedRow.Good

variable {s : Strategy} {scale : ℚ} {area : Area} {compensation : ℚ} {placed : PlacedRow}

section

variable (h : placed.Good s scale area compensation)
include h

theorem cellWidth_nonneg :
    ∀ window ∈ placed.row.windows,
      0 ≤ window.boundingBox.width * s.cellScale scale placed.additionalScale window :=
  fun window hwindow => mul_nonneg (le_of_lt window.boundingBox.width_pos) (h.cellScale window hwindow)

theorem exists_cell {single : Bool} {slot : Slot}
    (hslot : slot ∈ s.rowSlots scale single placed compensation placed.x placed.row.windows) :
    ∃ x, ∃ window ∈ placed.row.windows,
      slot = s.slot scale single placed compensation x window ∧
      slot.Inside {
        x := x
        y := placed.y + compensation
        width := window.boundingBox.width * s.cellScale scale placed.additionalScale window
        height := placed.height * placed.additionalScale } ∧
      area.x ≤ x ∧
      x + window.boundingBox.width * s.cellScale scale placed.additionalScale window ≤
        area.x + area.width := by
  rw [rowSlots_eq] at hslot
  obtain ⟨p, hp, rfl⟩ := List.mem_map.mp hslot
  have hwindow := Strips.mem_of_mem_place hp
  obtain ⟨hstart, hend⟩ := Strips.place_bounds s.columnSpacing_nonneg h.cellWidth_nonneg hp
  have hleft := h.left
  have hright := h.right
  exact ⟨p.1, p.2, hwindow, rfl,
    slot_within single compensation p.1 (h.cellScale p.2 hwindow) (h.cellHeight p.2 hwindow),
    by linarith, by linarith⟩

theorem inside {single : Bool} {slot : Slot}
    (hslot : slot ∈ s.rowSlots scale single placed compensation placed.x placed.row.windows) :
    slot.Inside area := by
  obtain ⟨x, window, -, -, hin, hleft, hright⟩ := h.exists_cell hslot
  have htop := h.top
  have hbottom := h.bottom
  obtain ⟨hwidth, hheight, hl, hr, ht, hb⟩ := hin
  dsimp only at hl hr ht hb
  exact ⟨hwidth, hheight, by linarith, by linarith, by linarith, by linarith⟩

theorem apart (single : Bool) :
    (s.rowSlots scale single placed compensation placed.x placed.row.windows).Pairwise
      Slot.Apart := by
  rw [rowSlots_eq, List.pairwise_map]
  have hcells := Strips.place_pairwise (x := placed.x) s.columnSpacing_nonneg h.cellWidth_nonneg
  refine List.Pairwise.imp_of_mem (fun {p q} hp hq hpq => ?_) hcells
  have hpw := Strips.mem_of_mem_place hp
  have hqw := Strips.mem_of_mem_place hq
  have hpin := slot_within single compensation p.1 (h.cellScale p.2 hpw) (h.cellHeight p.2 hpw)
  have hqin := slot_within single compensation q.1 (h.cellScale q.2 hqw) (h.cellHeight q.2 hqw)
  have hright := hpin.right
  have hleft := hqin.left
  left
  dsimp only at hright hleft
  linarith

end

theorem map_window (s : Strategy) (scale : ℚ) (single : Bool) (placed : PlacedRow)
    (compensation x : ℚ) (windows : List WindowPreview) :
    (s.rowSlots scale single placed compensation x windows).map Slot.window = windows := by
  induction windows generalizing x with
  | nil => rfl
  | cons window windows ih => rw [Strategy.rowSlots, List.map_cons, ih, Strategy.slot]

theorem maximum (h : placed.Good s scale area compensation) {single : Bool} {slot : Slot}
    (hslot : slot ∈ s.rowSlots scale single placed compensation placed.x placed.row.windows) :
    ∃ scale ≤ windowPreviewMaximumScale,
      slot.width = slot.window.boundingBox.width * scale ∧
        slot.height = slot.window.boundingBox.height * scale := by
  obtain ⟨x, window, -, rfl, -⟩ := h.exists_cell hslot
  exact ⟨_, min_le_right _ _, rfl, rfl⟩

end PlacedRow.Good

/-! ## The rows -/

def Strategy.rowScale (s : Strategy) (scale : ℚ) (area : Area) (additionalVerticalScale : ℚ)
    (row : Row) : ℚ :=
  min ((minRatio 1 (area.width - (row.windows.length - 1) * s.columnSpacing)
    (row.fullWidth * scale)).getD 0) additionalVerticalScale

def Strategy.placed (s : Strategy) (scale : ℚ) (area : Area) (additionalVerticalScale : ℚ)
    (row : Row) (y : ℚ) : PlacedRow where
  row := row
  x := area.x + max (area.width - (row.fullWidth * scale *
    s.rowScale scale area additionalVerticalScale row +
      (row.windows.length - 1) * s.columnSpacing)) 0 / 2
  y := y
  height := row.height scale
  additionalScale := s.rowScale scale area additionalVerticalScale row
  compensation := (additionalVerticalScale - s.rowScale scale area additionalVerticalScale row) *
    row.height scale

theorem placeRows_eq {s : Strategy} {scale : ℚ} {area : Area} (additionalVerticalScale top y : ℚ)
    {rows : List Row}
    (h : ∀ row ∈ rows, minRatio 1 (area.width - (row.windows.length - 1) * s.columnSpacing)
      (row.fullWidth * scale) ≠ none) :
    s.placeRows scale area additionalVerticalScale top y rows =
      some ((Strips.place s.rowSpacing
        (fun row => row.height scale * s.rowScale scale area additionalVerticalScale row) y rows).map
          fun p => s.placed scale area additionalVerticalScale p.2 (top + p.1)) := by
  induction rows generalizing y with
  | nil => rfl
  | cons row rows ih =>
    have hwidth : s.rowWidth row scale - (row.windows.length - 1) * s.columnSpacing =
        row.fullWidth * scale := by
      rw [Strategy.rowWidth]
      ring
    obtain ⟨horizontal, hsome⟩ := Option.ne_none_iff_exists'.mp (h row (.head _))
    have hscale : (if horizontal < additionalVerticalScale then horizontal
        else additionalVerticalScale) = s.rowScale scale area additionalVerticalScale row := by
      rw [Strategy.rowScale, hsome, Option.getD_some, min_def_lt]
    have hcompensation : (if horizontal < additionalVerticalScale then
        (additionalVerticalScale - horizontal) * row.height scale else 0) =
        (additionalVerticalScale - s.rowScale scale area additionalVerticalScale row) *
          row.height scale := by
      rw [← hscale]
      split
      · rfl
      · rw [sub_self, zero_mul]
    rw [Strategy.placeRows]
    simp only [hwidth, hsome, hscale, hcompensation]
    rw [ih _ fun row' hrow' => h row' (.tail _ hrow')]
    rfl

end WorkspaceLayout
