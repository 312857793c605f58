import GnomeShellMobile.QuickSettings.Layout
import GnomeShellMobile.Strips.Basic

/-!
# QuickSettings — the boxes of the children

* `flatten_getRows`, `spans_le_of_mem_getRows`: the rows are the children that are shown, in their
  order, and none has more columns than there are.
* `allocateRow_eq`: a row is a strip, so that its boxes are apart and within the box of the layout.
* `allocate_rtl`: right-to-left boxes are taken from the right edge. That mirrors them in a box that
  starts at 0, and in no other one (`allocates_iff`).
-/

namespace QuickSettings

namespace Layout

variable {layout : Layout} {lines : Layout.Lines} {child : Child} {children row : List Child}
  {box : ActorBox}

theorem colSpan_pos (layout : Layout) (child : Child) : 0 < layout.colSpan child := by
  have hpos := layout.nColumns_pos
  unfold colSpan clamp
  split
  · exact hpos
  · omega

theorem colSpan_le (layout : Layout) (child : Child) : layout.colSpan child ≤ layout.nColumns := by
  unfold colSpan clamp
  split
  · exact le_rfl
  · omega

/-! ## The rows -/

def spans (layout : Layout) (row : List Child) : ℕ := (row.map layout.colSpan).sum

theorem spans_cons (layout : Layout) (child : Child) (row : List Child) :
    layout.spans (child :: row) = layout.colSpan child + layout.spans row := by
  rw [spans, List.map_cons, List.sum_cons, spans]

theorem spans_concat (layout : Layout) (row : List Child) (child : Child) :
    layout.spans (row ++ [child]) = layout.spans row + layout.colSpan child := by
  rw [spans, List.map_append, List.sum_append, List.map_singleton, List.sum_singleton, spans]

theorem spans_eq_zero (h : layout.spans row = 0) : row = [] := by
  cases row with
  | nil => rfl
  | cons child row =>
    have hpos := layout.colSpan_pos child
    rw [spans_cons] at h
    omega

structure Lines.Holds (layout : Layout) (lines : Lines) (done : List Child) : Prop where
  flatten : lines.rows.flatten = done
  spans : ∀ row ∈ lines.rows, layout.spans row ≤ layout.nColumns
  last : lines.lineIndex = 0 ∨
    ∃ rows cur, lines.rows = rows ++ [cur] ∧ lines.lineIndex = layout.spans cur

theorem Lines.Holds.push {rows : List (List Child)} {cur done : List Child}
    (h : Lines.Holds layout ⟨rows ++ [cur], layout.spans cur⟩ done)
    (hfits : layout.spans cur + layout.colSpan child ≤ layout.nColumns) :
    Lines.Holds layout ⟨(rows ++ [cur]).modifyLast (· ++ [child]),
      (layout.spans cur + layout.colSpan child) % layout.nColumns⟩ (done ++ [child]) := by
  have hspans := layout.spans_concat cur child
  constructor
  · dsimp only
    rw [List.modifyLast_concat, ← h.flatten]
    simp
  · intro row hrow
    rw [List.modifyLast_concat] at hrow
    rcases List.mem_append.mp hrow with hrow | hrow
    · exact h.spans row (List.mem_append_left _ hrow)
    · rw [List.mem_singleton.mp hrow, hspans]
      exact hfits
  · rcases Nat.lt_or_eq_of_le hfits with hlt | heq
    · refine .inr ⟨rows, cur ++ [child], List.modifyLast_concat .., ?_⟩
      rw [hspans]
      exact Nat.mod_eq_of_lt hlt
    · refine .inl ?_
      dsimp only
      rw [heq, Nat.mod_self]

theorem Lines.Holds.appendRow {done : List Child} (h : lines.Holds layout done) :
    Lines.Holds layout ⟨lines.rows ++ [[]], layout.spans []⟩ done where
  flatten := by simpa using h.flatten
  spans row hrow := by
    rcases List.mem_append.mp hrow with hrow | hrow
    · exact h.spans row hrow
    · rw [List.mem_singleton.mp hrow]
      exact Nat.zero_le _
  last := .inl rfl

theorem Lines.Holds.addChild {done : List Child} (h : lines.Holds layout done) (child : Child) :
    (layout.addChild lines child).Holds layout (done ++ [child]) := by
  have hnil : layout.spans [] = 0 := rfl
  have hle : layout.spans [] + layout.colSpan child ≤ layout.nColumns := by
    rw [hnil, Nat.zero_add]
    exact layout.colSpan_le child
  -- a row that has just been appended has room for every child
  have hnew := h.appendRow.push hle
  obtain ⟨rows, lineIndex⟩ := lines
  unfold Layout.addChild
  by_cases hzero : lineIndex = 0
  · subst hzero
    simpa [Lines.appendRow, hnil, layout.colSpan_le child] using hnew
  · obtain hlast | ⟨rows', cur, hrows, hindex⟩ := h.last
    · exact absurd hlast hzero
    · dsimp only at hrows hindex
      subst hrows hindex
      by_cases hfits : layout.spans cur + layout.colSpan child ≤ layout.nColumns
      · simpa [hzero, hfits] using h.push hfits
      · simpa [hzero, hfits, Lines.appendRow, hnil] using hnew

/-- Induction on the children that are left. -/
theorem Lines.Holds.foldl {done : List Child} (h : lines.Holds layout done)
    (children : List Child) :
    (children.foldl layout.addIfShown lines).Holds layout (done ++ layout.shown children) := by
  induction children generalizing lines done with
  | nil => simpa [shown] using h
  | cons child children ih =>
    rw [List.foldl_cons, shown, List.filter_cons, ← shown]
    by_cases hshown : child.visible = true ∧ child.id ≠ layout.overlay
    · obtain ⟨hvisible, hid⟩ := hshown
      rw [addIfShown, if_pos hvisible, if_neg hid, if_pos (by simp [hvisible, hid]),
        ← List.singleton_append, ← List.append_assoc]
      exact ih (h.addChild child)
    · rw [if_neg (by simpa using hshown)]
      have hskip : layout.addIfShown lines child = lines := by
        unfold addIfShown
        split
        · next hvisible =>
          rw [if_pos (not_not.mp fun hid => hshown ⟨hvisible, hid⟩)]
        · rfl
      rw [hskip]
      exact ih h

theorem holds_getRows (layout : Layout) (children : List Child) :
    (children.foldl layout.addIfShown ⟨[], 0⟩).Holds layout (layout.shown children) :=
  Lines.Holds.foldl ⟨rfl, fun _ h => absurd h List.not_mem_nil, .inl rfl⟩ children

theorem flatten_getRows (layout : Layout) (children : List Child) :
    (layout.getRows children).flatten = layout.shown children :=
  (layout.holds_getRows children).flatten

theorem spans_le_of_mem_getRows (h : row ∈ layout.getRows children) :
    layout.spans row ≤ layout.nColumns :=
  (layout.holds_getRows children).spans row h

/-! ## Right-to-left boxes -/

def reflect (box a : ActorBox) : ActorBox := { a with x1 := box.x2 - a.x2, x2 := box.x2 - a.x1 }

theorem allocateRow_rtl (y rowNat : ℚ) (lineIndex : ℕ) (row : List Child) :
    layout.allocateRow true box y rowNat lineIndex row =
      (layout.allocateRow false box y rowNat lineIndex row).map
        fun p => (p.1, reflect box p.2) := by
  induction row generalizing lineIndex with
  | nil => rfl
  | cons child row ih =>
    rw [allocateRow, allocateRow, List.map_cons, ih]
    congr 2
    simp only [childBox, reflect, ActorBox.ofOrigin, if_true, Bool.false_eq_true, if_false,
      ActorBox.mk.injEq, true_and, and_true]
    constructor <;> ring

theorem allocateRows_rtl (y : ℚ) (rows : List (List Child)) : layout.allocateRows true box y rows =
      (layout.allocateRows false box y rows).map (·.map fun p => (p.1, reflect box p.2)) := by
  induction rows generalizing y with
  | nil => rfl
  | cons row rows ih => rw [allocateRows, allocateRows, List.map_cons, allocateRow_rtl, ih]

theorem allocate_rtl (layout : Layout) (children : List Child) (box : ActorBox) :
    layout.allocate true children box =
      (layout.allocate false children box).map (·.map fun p => (p.1, reflect box p.2)) :=
  allocateRows_rtl _ _

/-! ## A row is a strip -/

theorem allocateRow_eq (y rowNat : ℚ) {lineIndex : ℕ} {row : List Child}
    (h : lineIndex + layout.spans row ≤ layout.nColumns) :
    layout.allocateRow false box y rowNat lineIndex row =
      (Strips.place (layout.columnSpacing : ℚ) (layout.width box)
        (box.x1 + lineIndex * (layout.childWidth box + layout.columnSpacing)) row).map
          fun p => (p.2, .ofOrigin p.1 y (layout.width box p.2) rowNat) := by
  induction row generalizing lineIndex with
  | nil => rfl
  | cons child row ih =>
    rw [spans_cons] at h
    rw [allocateRow, Strips.place, List.map_cons]
    congr 1
    rcases Nat.lt_or_eq_of_le (Nat.le_trans (Nat.le_add_right _ _) (Nat.add_assoc .. ▸ h)) with
      hlt | heq
    · rw [Nat.mod_eq_of_lt hlt, ih (by omega)]
      congr 2
      rw [width]
      push_cast
      ring
    · -- the row is full
      have hzero : layout.spans row = 0 := by omega
      rw [spans_eq_zero hzero]
      rfl

theorem extent_width (layout : Layout) (box : ActorBox) (row : List Child) :
    Strips.extent (layout.columnSpacing : ℚ) (layout.width box) row =
      layout.spans row * (layout.childWidth box + layout.columnSpacing) - layout.columnSpacing := by
  induction row with
  | nil =>
    rw [Strips.extent, spans]
    simp
  | cons child row ih =>
    rw [Strips.extent_cons, ih, spans_cons, width]
    push_cast
    ring

theorem columns_le (layout : Layout) (box : ActorBox) :
    layout.nColumns * (layout.childWidth box + layout.columnSpacing : ℚ) - layout.columnSpacing ≤
      box.width := by
  have hpos : (0 : ℚ) < layout.nColumns := Nat.cast_pos.mpr layout.nColumns_pos
  have hfloor := Int.floor_le
    ((box.width - ((layout.nColumns : ℚ) - 1) * layout.columnSpacing) / layout.nColumns)
  rw [le_div_iff₀ hpos] at hfloor
  change (layout.childWidth box : ℚ) * _ ≤ _ at hfloor
  linarith

theorem column_nonneg (h : 0 ≤ layout.width box child) :
    (0 : ℚ) ≤ layout.childWidth box + layout.columnSpacing := by
  have hspan : (0 : ℚ) < layout.colSpan child := Nat.cast_pos.mpr (layout.colSpan_pos child)
  have hgap : (0 : ℚ) ≤ layout.columnSpacing := Nat.cast_nonneg _
  have hwidth : layout.width box child =
      layout.colSpan child * (layout.childWidth box + layout.columnSpacing) -
        layout.columnSpacing := by
    rw [width]
    ring
  have hprod : 0 ≤ (layout.colSpan child : ℚ) * (layout.childWidth box + layout.columnSpacing) := by
    linarith
  exact nonneg_of_mul_nonneg_right hprod hspan

theorem extent_le (hspans : layout.spans row ≤ layout.nColumns)
    (h : ∀ child ∈ row, 0 ≤ layout.width box child) (hrow : row ≠ []) :
    Strips.extent (layout.columnSpacing : ℚ) (layout.width box) row ≤ box.width := by
  obtain ⟨child, row', rfl⟩ := List.exists_cons_of_ne_nil hrow
  have hcolumn := column_nonneg (h child List.mem_cons_self)
  calc Strips.extent (layout.columnSpacing : ℚ) (layout.width box) (child :: row')
      = layout.spans (child :: row') * (layout.childWidth box + layout.columnSpacing) -
          layout.columnSpacing := extent_width ..
    _ ≤ layout.nColumns * (layout.childWidth box + layout.columnSpacing) - layout.columnSpacing :=
        sub_le_sub_right (mul_le_mul_of_nonneg_right (Nat.cast_le.mpr hspans) hcolumn) _
    _ ≤ box.width := columns_le ..

def Wide (layout : Layout) (box : ActorBox) (child : Child) : Prop :=
  ((layout.nColumns : ℚ) - 1) * layout.columnSpacing ≤
    box.width + layout.nColumns *
      ((layout.colSpan child - 1) * layout.columnSpacing / layout.colSpan child : ℕ)

theorem width_nonneg_iff : 0 ≤ layout.width box child ↔ layout.Wide box child := by
  have hspan := layout.colSpan_pos child
  have hpos : (0 : ℚ) < layout.nColumns := Nat.cast_pos.mpr layout.nColumns_pos
  generalize hq : (layout.colSpan child - 1) * layout.columnSpacing / layout.colSpan child = q
  calc 0 ≤ layout.width box child
      ↔ (-layout.childWidth box) * layout.colSpan child ≤
          ((layout.colSpan child - 1) * layout.columnSpacing : ℕ) := by
        rw [width, ← Int.cast_le (R := ℚ)]
        push_cast [Nat.cast_sub hspan]
        constructor <;> intro h <;> linarith
    _ ↔ -(q : ℤ) ≤ layout.childWidth box := by
        rw [← Int.le_ediv_iff_mul_le (Int.natCast_pos.mpr hspan), ← Int.natCast_ediv, hq]
        omega
    _ ↔ -(q : ℚ) * layout.nColumns ≤
          box.width - ((layout.nColumns : ℚ) - 1) * layout.columnSpacing := by
        rw [childWidth, Int.le_floor, le_div_iff₀ hpos]
        push_cast
        rfl
    _ ↔ layout.Wide box child := by
        rw [Wide, hq]
        constructor <;> intro h <;> linarith

/-! ## What is allocated -/

/-- The children have boxes within the box of the layout. Those of a row are side by side, and the
rows one below the other. Right-to-left boxes mirror the left-to-right ones. -/
structure Allocates (layout : Layout) (rtl : Bool) (children : List Child) (box : ActorBox) : Prop where
  each : (layout.allocate rtl children box).flatten.map Prod.fst = layout.shown children
  inside : ∀ p ∈ (layout.allocate rtl children box).flatten,
    box.x1 ≤ p.2.x1 ∧ p.2.x1 ≤ p.2.x2 ∧ p.2.x2 ≤ box.x2
  apart : ∀ row ∈ layout.allocate rtl children box,
    row.Pairwise fun p q => p.2.x2 ≤ q.2.x1 ∨ q.2.x2 ≤ p.2.x1
  below : (layout.allocate rtl children box).Pairwise fun row later =>
    ∀ p ∈ row, ∀ q ∈ later, p.2.y2 ≤ q.2.y1
  mirror : rtl = true → layout.allocate true children box =
    (layout.allocate false children box).map (·.map fun p => (p.1, box.mirror p.2))

variable {rtl : Bool} {y rowNat : ℚ} {lineIndex : ℕ} {p : Child × ActorBox}
  {rows : List (List Child)}

theorem map_fst_allocateRow (row : List Child) :
    (layout.allocateRow rtl box y rowNat lineIndex row).map Prod.fst = row := by
  induction row generalizing lineIndex with
  | nil => rfl
  | cons child row ih => rw [allocateRow, List.map_cons, ih]

theorem map_fst_allocateRows (rows : List (List Child)) :
    (layout.allocateRows rtl box y rows).flatten.map Prod.fst = rows.flatten := by
  induction rows generalizing y with
  | nil => rfl
  | cons row rows ih =>
    rw [allocateRows, List.flatten_cons, List.map_append, map_fst_allocateRow, ih,
      List.flatten_cons]

theorem mem_allocateRow (h : p ∈ layout.allocateRow rtl box y rowNat lineIndex row) :
    p.2.x2 - p.2.x1 = layout.width box p.1 ∧ p.2.y1 = y ∧ p.2.y2 = y + rowNat := by
  induction row generalizing lineIndex with
  | nil => exact absurd h List.not_mem_nil
  | cons child row ih =>
    rcases List.mem_cons.mp h with rfl | h
    · exact ⟨add_sub_cancel_left _ _, rfl, rfl⟩
    · exact ih h

theorem foldl_heights_nonneg {a : ℚ × ℚ} (h : 0 ≤ a.2) (row : List Child) :
    0 ≤ (row.foldl (fun (minHeight, natHeight) child =>
      (max minHeight child.minHeight, max natHeight child.natHeight)) a).2 := by
  induction row generalizing a with
  | nil => exact h
  | cons child row ih => exact ih (le_max_of_le_left h)

theorem getRowHeight_nonneg (row : List Child) : 0 ≤ (getRowHeight row).2 :=
  foldl_heights_nonneg le_rfl row

theorem le_nextY (layout : Layout) (y : ℚ) (row : List Child) :
    y + (getRowHeight row).2 ≤ layout.nextY y row := by
  have hspacing : (0 : ℚ) ≤ layout.rowSpacing := Nat.cast_nonneg _
  have hoverlay : (0 : ℚ) ≤ layout.overlayHeight := layout.overlayHeight.2
  unfold nextY
  split <;> linarith

theorem mem_allocateRows {boxes : List (Child × ActorBox)}
    (h : boxes ∈ layout.allocateRows rtl box y rows) : ∃ row ∈ rows, ∃ y', y ≤ y' ∧
      boxes = layout.allocateRow rtl box y' (getRowHeight row).2 0 row := by
  induction rows generalizing y with
  | nil => exact absurd h List.not_mem_nil
  | cons row rows ih =>
    rcases List.mem_cons.mp h with rfl | h
    · exact ⟨row, List.mem_cons_self, y, le_rfl, rfl⟩
    · obtain ⟨row', hrow', y', hy', rfl⟩ := ih h
      have hnext := layout.le_nextY y row
      have hheight := getRowHeight_nonneg row
      exact ⟨row', List.mem_cons_of_mem _ hrow', y', by linarith, rfl⟩

theorem pairwise_allocateRows (rows : List (List Child)) :
    (layout.allocateRows rtl box y rows).Pairwise fun row later =>
      ∀ p ∈ row, ∀ q ∈ later, p.2.y2 ≤ q.2.y1 := by
  induction rows generalizing y with
  | nil => exact .nil
  | cons row rows ih =>
    refine .cons ?_ ih
    intro later hlater p hp q hq
    obtain ⟨row', -, y', hy', rfl⟩ := mem_allocateRows hlater
    obtain ⟨-, -, hbottom⟩ := mem_allocateRow hp
    obtain ⟨-, htop, -⟩ := mem_allocateRow hq
    have hnext := layout.le_nextY y row
    rw [hbottom, htop]
    linarith

theorem allocateRow_bounds (y rowNat : ℚ) (hspans : layout.spans row ≤ layout.nColumns)
    (hwidth : ∀ child ∈ row, 0 ≤ layout.width box child) :
    (∀ p ∈ layout.allocateRow false box y rowNat 0 row,
      box.x1 ≤ p.2.x1 ∧ p.2.x1 ≤ p.2.x2 ∧ p.2.x2 ≤ box.x2) ∧
    (layout.allocateRow false box y rowNat 0 row).Pairwise fun p q => p.2.x2 ≤ q.2.x1 := by
  have hgap : (0 : ℚ) ≤ layout.columnSpacing := Nat.cast_nonneg _
  rw [allocateRow_eq y rowNat (by omega)]
  constructor
  · intro p hp
    obtain ⟨slot, hslot, rfl⟩ := List.mem_map.mp hp
    have hmem := Strips.mem_of_mem_place hslot
    have hextent := extent_le hspans hwidth (List.ne_nil_of_mem hmem)
    obtain ⟨hleft, hright⟩ := Strips.place_bounds hgap hwidth hslot
    have hslotWidth := hwidth _ hmem
    rw [ActorBox.width] at hextent
    simp only [ActorBox.ofOrigin, Nat.cast_zero, zero_mul, add_zero] at hleft hright ⊢
    exact ⟨hleft, by linarith, by linarith⟩
  · exact List.Pairwise.map _ (fun _ _ h => h) (Strips.place_pairwise hgap hwidth)

theorem exists_mem_allocate (rtl : Bool) (box : ActorBox) (h : child ∈ layout.shown children) :
    ∃ p ∈ (layout.allocate rtl children box).flatten, p.1 = child := by
  have hfst : (layout.allocate rtl children box).flatten.map Prod.fst =
      (layout.getRows children).flatten := map_fst_allocateRows _
  rw [← flatten_getRows, ← hfst] at h
  exact List.mem_map.mp h

theorem allocate_bounds (h : ∀ child ∈ layout.shown children, 0 ≤ layout.width box child)
    {boxes : List (Child × ActorBox)} (hboxes : boxes ∈ layout.allocate false children box) :
    (∀ p ∈ boxes, p.1 ∈ layout.shown children ∧
      box.x1 ≤ p.2.x1 ∧ p.2.x1 ≤ p.2.x2 ∧ p.2.x2 ≤ box.x2) ∧
    boxes.Pairwise fun p q => p.2.x2 ≤ q.2.x1 := by
  obtain ⟨row, hrow, y, -, rfl⟩ := mem_allocateRows hboxes
  have hshown : ∀ child ∈ row, child ∈ layout.shown children := by
    intro child hchild
    rw [← flatten_getRows]
    exact List.mem_flatten.mpr ⟨row, hrow, hchild⟩
  obtain ⟨hinside, hapart⟩ := allocateRow_bounds y (getRowHeight row).2
    (spans_le_of_mem_getRows hrow) fun child hchild => h child (hshown child hchild)
  refine ⟨fun p hp => ⟨hshown p.1 ?_, hinside p hp⟩, hapart⟩
  have hmem := List.mem_map_of_mem (f := Prod.fst) hp
  rwa [map_fst_allocateRow] at hmem

/-- The layout is as it should be exactly if it is wide enough for the spacing, and starts at 0
where it is right-to-left. -/
theorem allocates_iff (layout : Layout) (rtl : Bool) (children : List Child) (box : ActorBox) :
    layout.Allocates rtl children box ↔
      ∀ child ∈ layout.shown children, layout.Wide box child ∧ (rtl = true → box.x1 = 0) := by
  simp only [← width_nonneg_iff]
  constructor
  · intro h child hchild
    constructor
    · obtain ⟨p, hp, rfl⟩ := exists_mem_allocate rtl box hchild
      obtain ⟨boxes, hboxes, hp'⟩ := List.mem_flatten.mp hp
      obtain ⟨row, -, y, -, rfl⟩ := mem_allocateRows hboxes
      rw [← (mem_allocateRow hp').1]
      exact sub_nonneg.mpr (h.inside p hp).2.1
    · intro hrtl
      obtain ⟨p, hp, rfl⟩ := exists_mem_allocate false box hchild
      obtain ⟨boxes, hboxes, hp'⟩ := List.mem_flatten.mp hp
      have hmirror := h.mirror hrtl
      rw [allocate_rtl, List.map_inj_left] at hmirror
      have hp'' := List.map_inj_left.mp (hmirror boxes hboxes) p hp'
      have hx1 : box.x2 - p.2.x2 = box.x1 + box.x2 - p.2.x2 :=
        congrArg (fun q : Child × ActorBox => q.2.x1) hp''
      linarith
  · intro h
    have hbounds := fun boxes (hboxes : boxes ∈ layout.allocate false children box) =>
      allocate_bounds (fun child hchild => (h child hchild).1) hboxes
    constructor
    · exact (map_fst_allocateRows _).trans (layout.flatten_getRows children)
    · intro p hp
      obtain ⟨boxes, hboxes, hmem⟩ := List.mem_flatten.mp hp
      cases rtl with
      | false => exact ((hbounds boxes hboxes).1 p hmem).2
      | true =>
        rw [allocate_rtl] at hboxes
        obtain ⟨ltr, hltr, rfl⟩ := List.mem_map.mp hboxes
        obtain ⟨q, hq, rfl⟩ := List.mem_map.mp hmem
        obtain ⟨hshown, hleft, hle, hright⟩ := (hbounds ltr hltr).1 q hq
        have hzero := (h q.1 hshown).2 rfl
        rw [hzero] at hleft ⊢
        simp only [reflect]
        exact ⟨by linarith, by linarith, by linarith⟩
    · intro boxes hboxes
      cases rtl with
      | false => exact (hbounds boxes hboxes).2.imp .inl
      | true =>
        rw [allocate_rtl] at hboxes
        obtain ⟨ltr, hltr, rfl⟩ := List.mem_map.mp hboxes
        -- what is to the left of a box is to the right of its reflection
        exact List.Pairwise.map _ (fun p q hpq => .inr (sub_le_sub_left hpq box.x2))
          (hbounds ltr hltr).2
    · exact pairwise_allocateRows _
    · intro hrtl
      rw [allocate_rtl]
      refine List.map_congr_left fun boxes hboxes => List.map_congr_left fun p hp => ?_
      have hzero := (h p.1 ((hbounds boxes hboxes).1 p hp).1).2 hrtl
      rw [reflect, ActorBox.mirror, hzero, zero_add]

/-- A right-to-left tile in a grid with a padding of 12 is moved out of it. -/
theorem not_allocates : ¬ Allocates
    { rowSpacing := 0, columnSpacing := 0, nColumns := 1, nColumns_pos := Nat.one_pos, overlay := 0,
      overlayHeight := 0 }
    true [⟨1, true, 1, 40, 40, false⟩] ⟨12, 0, 112, 40⟩ := by
  intro h
  have hmirror := h.mirror rfl
  revert hmirror
  decide +kernel

end Layout

end QuickSettings
