import GnomeShellMobile.Strips.Basic
import Mathlib.Algebra.Order.BigOperators.Group.List
import Mathlib.Algebra.Order.Field.Rat
import Mathlib.Tactic.Linarith
import Mathlib.Tactic.NormNum
import Mathlib.Tactic.Ring

/-!
# MessageGroupExpanderLayout — the size of a group of notifications

`MessageGroupExpanderLayout` in `js/ui/messageList.js` measures the first message, the cover below it,
the other messages and the header, and puts them into a box; lengths are rational.

* **`stackedLoop_spec`** — the stacked height is at least that of a first message that is shown.
* **`stackLoop_bottoms`** — the bottoms of the stack, whatever the expansion.
* **`stackLoop_expanded`** — the stack of an expanded group is a strip without gaps.
* **`lays_iff_covered`** — the headline: the width is the one measure that leaves something out.
-/

namespace MessageGroupExpanderLayout

def maxVisibleStackedMessages : ℕ := 3

def additionalBottomMarginExpandedGroup : ℚ := 15

def widthOffsetStacked : ℚ := 6

def heightOffsetStacked : ℚ := 10

def heightOffsetReductionStacked : ℚ := 7 / 5

structure Size where
  min : ℚ
  nat : ℚ
  min_nonneg : 0 ≤ min
  min_le_nat : min ≤ nat

structure Child where
  actor : ℕ
  visible : Bool
  /-- `get_preferred_width`, for a height. -/
  preferredWidth : ℚ → Size
  /-- `get_preferred_height`, for a width. -/
  preferredHeight : ℚ → Size

structure ActorBox where
  x1 : ℚ
  y1 : ℚ
  x2 : ℚ
  y2 : ℚ

/-- The layout manager; the setter of `expansion` clamps it. -/
structure Layout where
  cover : Child
  header : Child
  expansion : ℚ
  nonneg : 0 ≤ expansion
  le_one : expansion ≤ 1

variable (s : Layout)

variable (container : List Child)

def Layout.getExpandedHeight (forWidth : ℚ) : ℚ × ℚ :=
  let (minExpanded, natExpanded) := container.foldl (fun expanded child =>
    if child.actor = s.cover.actor then expanded
    else
      let size := child.preferredHeight forWidth
      (expanded.1 + size.min, expanded.2 + size.nat)) (0, 0)
  (minExpanded + additionalBottomMarginExpandedGroup, natExpanded + additionalBottomMarginExpandedGroup)

/-- The function that `vfunc_get_preferred_width` reduces the children with. -/
def Layout.reduceWidth (forHeight : ℚ) (acc : ℚ × ℚ) (child : Child) : ℚ × ℚ :=
  if child.actor = s.cover.actor then (0, 0)
  else if !child.visible then acc
  else
    let size := child.preferredWidth forHeight
    (max size.min acc.1, max size.nat acc.2)

def Layout.getPreferredWidth (forHeight : ℚ) : ℚ × ℚ :=
  container.foldl (s.reduceWidth forHeight) (0, 0)

/-- The loop of `vfunc_get_preferred_height`. -/
def Layout.stackedLoop (forWidth : ℚ) : ℚ → ℚ × ℚ → ℕ → List Child → ℚ × ℚ
  | _, acc, _, [] => acc
  | offset, acc, visibleCount, child :: container =>
    if child.actor = s.cover.actor ∨ child.actor = s.header.actor then
      stackedLoop forWidth offset acc visibleCount container
    else if !child.visible then stackedLoop forWidth offset acc visibleCount container
    else
      let size := child.preferredHeight forWidth
      let (offset, acc) :=
        if acc.1 = 0 ∨ acc.2 = 0 then (offset, (size.min, size.nat))
        else (offset / heightOffsetReductionStacked, (acc.1 + offset, acc.2 + offset))
      if visibleCount - 1 = 0 then acc
      else stackedLoop forWidth offset acc (visibleCount - 1) container

def Layout.getPreferredHeight (forWidth : ℚ) : ℚ × ℚ :=
  let (min, nat) := s.stackedLoop forWidth heightOffsetStacked (0, 0) maxVisibleStackedMessages container
  let (minExpanded, natExpanded) := s.getExpandedHeight container forWidth
  (min + s.expansion * (minExpanded - min), nat + s.expansion * (natExpanded - nat))

structure Allocation where
  cover : Option ActorBox
  header : Option ActorBox
  messages : List (Child × ActorBox)

/-- The loop of `vfunc_allocate`. -/
def Layout.stackLoop (childWidth fullY2 : ℚ) : ActorBox → ℚ → List Child → List (Child × ActorBox)
  | _, _, [] => []
  | box, heightOffset, child :: stack =>
    let min := (child.preferredHeight childWidth).min
    let widthOffset := (1 - s.expansion) * widthOffsetStacked
    let y2 := box.y2 + (heightOffset + s.expansion * (min - heightOffset))
    let (y2, heightOffset) :=
      if y2 > fullY2 then (fullY2, heightOffset) else (y2, heightOffset / heightOffsetReductionStacked)
    let box : ActorBox := ⟨box.x1 + widthOffset, y2 - min, box.x2 - widthOffset, y2⟩
    (child, box) :: stackLoop childWidth fullY2 box heightOffset stack

def Layout.allocate (box : ActorBox) : Allocation :=
  let childWidth := box.x2 - box.x1
  let fullY2 := box.y2
  let cover := if s.cover.visible then some box else none
  let (header, box) :=
    if s.header.visible then
      let headerBox := { box with y2 := box.y1 + (s.header.preferredHeight childWidth).min }
      (some headerBox,
        { headerBox with y1 := headerBox.y1 + s.expansion * (headerBox.y2 - headerBox.y1) })
    else (none, box)
  if container.length < 3 then ⟨cover, header, []⟩
  else
    match container with
    | top :: _ :: stack =>
      let topBox := { box with y2 := box.y1 + (top.preferredHeight childWidth).min }
      ⟨cover, header,
        (top, topBox) :: s.stackLoop childWidth fullY2 topBox heightOffsetStacked stack.dropLast⟩
    | _ => ⟨cover, header, []⟩

/-! ## What is meant -/

structure Group where
  layout : Layout
  top : Child
  stack : List Child
  header_ne_cover : layout.header.actor ≠ layout.cover.actor
  messages_ne : ∀ message ∈ top :: stack,
    message.actor ≠ layout.cover.actor ∧ message.actor ≠ layout.header.actor

variable (g : Group)

def Group.children : List Child := g.top :: g.layout.cover :: (g.stack ++ [g.layout.header])

def widest (size : Child → ℚ) (children : List Child) : ℚ :=
  ((children.filter (·.visible)).map size).foldr max 0

variable (forHeight : ℚ)

def Group.Measures : Prop :=
  g.layout.getPreferredWidth g.children forHeight =
    (widest (fun c => (c.preferredWidth forHeight).min) (g.top :: (g.stack ++ [g.layout.header])),
      widest (fun c => (c.preferredWidth forHeight).nat) (g.top :: (g.stack ++ [g.layout.header])))

def Group.Preferred (box : ActorBox) : Prop :=
  let height := g.layout.getPreferredHeight g.children (box.x2 - box.x1)
  box.y2 - box.y1 = height.1 ∨ box.y2 - box.y1 = height.2

structure Group.Expanded (box headerBox : ActorBox) (messages : List (Child × ActorBox)) : Prop where
  disjoint : (headerBox :: messages.map (·.2)).Pairwise (·.y2 ≤ ·.y1)
  header_full : headerBox.y2 - headerBox.y1 = (g.layout.header.preferredHeight (box.x2 - box.x1)).min
  messages_full : ∀ m ∈ messages, m.2.y2 - m.2.y1 = (m.1.preferredHeight (box.x2 - box.x1)).min

structure Group.Stacks (box : ActorBox) : Prop where
  order : (g.layout.allocate g.children box).messages.map (·.1) = g.top :: g.stack
  inside : ∀ m ∈ (g.layout.allocate g.children box).messages, m.1.visible = true →
    box.y1 ≤ m.2.y2 ∧ m.2.y2 ≤ box.y2
  nondecreasing : ((g.layout.allocate g.children box).messages.filter (·.1.visible)).Pairwise
    (·.2.y2 ≤ ·.2.y2)
  expanded : g.layout.expansion = 1 → g.layout.header.visible = true →
    ∃ headerBox, (g.layout.allocate g.children box).header = some headerBox ∧
      g.Expanded box headerBox (g.layout.allocate g.children box).messages

def Group.Lays : Prop :=
  g.Measures forHeight ∧ ∀ box, g.Preferred box → g.Stacks box

def Group.Covered : Prop :=
  g.top.visible = false ∨
    (g.top.preferredWidth forHeight).min ≤
        widest (fun c => (c.preferredWidth forHeight).min) (g.stack ++ [g.layout.header]) ∧
      (g.top.preferredWidth forHeight).nat ≤
        widest (fun c => (c.preferredWidth forHeight).nat) (g.stack ++ [g.layout.header])

/-! ## The width -/

variable {s g}

theorem widest_cons (size : Child → ℚ) (child : Child) (children : List Child) :
    widest size (child :: children) =
      if child.visible then max (size child) (widest size children) else widest size children := by
  unfold widest
  cases h : child.visible with
  | true => rw [List.filter_cons_of_pos (by rw [h]), List.map_cons, List.foldr_cons, if_pos rfl]
  | false => rw [List.filter_cons_of_neg (by rw [h]; decide), if_neg Bool.false_ne_true]

theorem widest_nonneg (size : Child → ℚ) (children : List Child) : 0 ≤ widest size children := by
  unfold widest
  induction (children.filter (·.visible)).map size with
  | nil => exact le_refl 0
  | cons x xs ih => exact le_max_of_le_right ih

theorem foldl_reduceWidth (forHeight : ℚ) {children : List Child}
    (h : ∀ c ∈ children, c.actor ≠ s.cover.actor) :
    ∀ {acc : ℚ × ℚ}, 0 ≤ acc.1 → 0 ≤ acc.2 → children.foldl (s.reduceWidth forHeight) acc =
      (max acc.1 (widest (fun c => (c.preferredWidth forHeight).min) children),
        max acc.2 (widest (fun c => (c.preferredWidth forHeight).nat) children)) := by
  induction children with
  | nil =>
    intro acc hmin hnat
    exact Prod.ext (max_eq_left hmin).symm (max_eq_left hnat).symm
  | cons c children ih =>
    intro acc hmin hnat
    have hrest := fun d hd => h d (List.mem_cons_of_mem _ hd)
    rw [List.foldl_cons, Layout.reduceWidth, if_neg (h c List.mem_cons_self), widest_cons, widest_cons]
    cases hvisible : c.visible with
    | false =>
      rw [if_pos (by decide), if_neg Bool.false_ne_true, if_neg Bool.false_ne_true]
      exact ih hrest hmin hnat
    | true =>
      rw [if_neg (by decide), if_pos rfl, if_pos rfl]
      have hmin' : 0 ≤ max (c.preferredWidth forHeight).min acc.1 := le_max_of_le_right hmin
      have hnat' : 0 ≤ max (c.preferredWidth forHeight).nat acc.2 := le_max_of_le_right hnat
      have hthis := @ih hrest (_, _) hmin' hnat'
      dsimp only at hthis ⊢
      rw [hthis, max_assoc, max_assoc]
      exact Prod.ext (max_left_comm _ _ _) (max_left_comm _ _ _)

theorem Group.behind_ne_cover (g : Group) :
    ∀ c ∈ g.stack ++ [g.layout.header], c.actor ≠ g.layout.cover.actor := by
  intro c hc
  rcases List.mem_append.mp hc with hc | hc
  · exact (g.messages_ne c (List.mem_cons_of_mem _ hc)).1
  · rw [List.mem_singleton.mp hc]
    exact g.header_ne_cover

theorem getPreferredWidth_eq (forHeight : ℚ) : g.layout.getPreferredWidth g.children forHeight =
    (widest (fun c => (c.preferredWidth forHeight).min) (g.stack ++ [g.layout.header]),
      widest (fun c => (c.preferredWidth forHeight).nat) (g.stack ++ [g.layout.header])) := by
  have hcover (acc : ℚ × ℚ) : g.layout.reduceWidth forHeight acc g.layout.cover = (0, 0) := if_pos rfl
  rw [Layout.getPreferredWidth, Group.children, List.foldl_cons, List.foldl_cons, hcover,
    foldl_reduceWidth forHeight g.behind_ne_cover (le_refl 0) (le_refl 0),
    max_eq_right (widest_nonneg _ _), max_eq_right (widest_nonneg _ _)]

theorem measures_iff (forHeight : ℚ) : g.Measures forHeight ↔ g.Covered forHeight := by
  unfold Group.Measures Group.Covered
  rw [getPreferredWidth_eq, widest_cons, widest_cons, Prod.mk.injEq]
  cases g.top.visible with
  | false => exact ⟨fun _ => .inl rfl, fun _ => ⟨rfl, rfl⟩⟩
  | true =>
    rw [if_pos rfl, if_pos rfl, eq_comm, max_eq_right_iff, eq_comm, max_eq_right_iff]
    exact ⟨.inr, fun h => h.resolve_left (by decide)⟩

/-! ## The preferred height -/

theorem stackedLoop_spec (forWidth : ℚ) (children : List Child) :
    ∀ {offset : ℚ} {acc : ℚ × ℚ} {visibleCount : ℕ}, 0 ≤ offset → 0 ≤ acc.1 → acc.1 ≤ acc.2 →
      acc.1 ≤ (s.stackedLoop forWidth offset acc visibleCount children).1 ∧
        (s.stackedLoop forWidth offset acc visibleCount children).1 ≤
          (s.stackedLoop forWidth offset acc visibleCount children).2 := by
  induction children with
  | nil => exact fun _ _ hle => ⟨le_refl _, hle⟩
  | cons c children ih =>
    intro offset acc visibleCount hoffset hmin hle
    rw [Layout.stackedLoop]
    by_cases hskip : c.actor = s.cover.actor ∨ c.actor = s.header.actor
    · rw [if_pos hskip]
      exact ih hoffset hmin hle
    · rw [if_neg hskip]
      cases c.visible with
      | false => exact ih hoffset hmin hle
      | true =>
        have hsize := (c.preferredHeight forWidth).min_nonneg
        have hnat := (c.preferredHeight forWidth).min_le_nat
        rw [if_neg (by decide)]
        dsimp only
        by_cases hfirst : acc.1 = 0 ∨ acc.2 = 0
        · have hzero : acc.1 = 0 := hfirst.elim id fun h => by linarith
          simp only [if_pos hfirst]
          split
          · exact ⟨by linarith, hnat⟩
          · have hthis := @ih offset ((c.preferredHeight forWidth).min, (c.preferredHeight forWidth).nat)
              (visibleCount - 1) hoffset hsize hnat
            exact ⟨hthis.1.trans' (by linarith), hthis.2⟩
        · simp only [if_neg hfirst]
          split
          · exact ⟨by linarith, by linarith⟩
          · have hthis := @ih (offset / heightOffsetReductionStacked) (acc.1 + offset, acc.2 + offset)
              (visibleCount - 1) (by unfold heightOffsetReductionStacked; positivity)
              (by dsimp only; linarith) (by dsimp only; linarith)
            exact ⟨hthis.1.trans' (by dsimp only; linarith), hthis.2⟩

variable (width : ℚ)

def minHeight (child : Child) : ℚ := (child.preferredHeight width).min

theorem minHeight_nonneg (child : Child) : 0 ≤ minHeight width child :=
  (child.preferredHeight width).min_nonneg

theorem sum_minHeight_nonneg (children : List Child) :
    0 ≤ (children.map (minHeight width)).sum := by
  apply List.sum_nonneg
  intro x hx
  obtain ⟨c, -, rfl⟩ := List.mem_map.mp hx
  exact minHeight_nonneg width c

theorem foldl_expanded (width : ℚ) {children : List Child} (h : ∀ c ∈ children, c.actor ≠ s.cover.actor) :
    ∀ (acc : ℚ × ℚ), acc.1 ≤ acc.2 →
      ∃ nat, children.foldl (fun expanded child =>
        if child.actor = s.cover.actor then expanded
        else
          let size := child.preferredHeight width
          (expanded.1 + size.min, expanded.2 + size.nat)) acc =
            (acc.1 + (children.map (minHeight width)).sum, nat) ∧
          acc.1 + (children.map (minHeight width)).sum ≤ nat := by
  induction children with
  | nil =>
    intro acc hle
    rw [List.map_nil, List.sum_nil, add_zero]
    exact ⟨acc.2, rfl, hle⟩
  | cons c children ih =>
    intro acc hle
    have hnat := (c.preferredHeight width).min_le_nat
    obtain ⟨nat, hfold, hthis⟩ := ih (fun d hd => h d (List.mem_cons_of_mem _ hd))
      (acc.1 + (c.preferredHeight width).min, acc.2 + (c.preferredHeight width).nat)
      (add_le_add hle hnat)
    dsimp only at hfold hthis
    rw [List.foldl_cons, if_neg (h c List.mem_cons_self), List.map_cons, List.sum_cons, ← add_assoc]
    exact ⟨nat, hfold, hthis⟩

theorem getExpandedHeight_spec :
    (g.layout.getExpandedHeight g.children width).1 = minHeight width g.top +
        (g.stack.map (minHeight width)).sum + minHeight width g.layout.header + 15 ∧
      (g.layout.getExpandedHeight g.children width).1 ≤ (g.layout.getExpandedHeight g.children width).2 := by
  have htop := (g.messages_ne g.top List.mem_cons_self).1
  have hnat := (g.top.preferredHeight width).min_le_nat
  obtain ⟨nat, hfold, hle⟩ := foldl_expanded width g.behind_ne_cover
    ((0 : ℚ) + (g.top.preferredHeight width).min, (0 : ℚ) + (g.top.preferredHeight width).nat)
    (add_le_add (le_refl 0) hnat)
  have hheight : g.layout.getExpandedHeight g.children width =
      (0 + (g.top.preferredHeight width).min +
          ((g.stack ++ [g.layout.header]).map (minHeight width)).sum + 15, nat + 15) := by
    rw [Layout.getExpandedHeight, Group.children, List.foldl_cons, if_neg htop, List.foldl_cons,
      if_pos rfl, hfold]
    rfl
  rw [hheight]
  constructor
  · rw [List.map_append, List.sum_append, List.map_singleton, List.sum_singleton]
    show 0 + minHeight width g.top + _ + 15 = _
    ring
  · dsimp only at hle ⊢
    linarith

theorem stackedLoop_top (hvisible : g.top.visible = true) : minHeight width g.top ≤
    (g.layout.stackedLoop width heightOffsetStacked (0, 0) maxVisibleStackedMessages g.children).1 := by
  obtain ⟨hcover, hheader⟩ := g.messages_ne g.top List.mem_cons_self
  have hskip : ¬(g.top.actor = g.layout.cover.actor ∨ g.top.actor = g.layout.header.actor) :=
    not_or.mpr ⟨hcover, hheader⟩
  rw [Group.children, Layout.stackedLoop, if_neg hskip, hvisible, if_neg (by decide)]
  simp only [true_or, if_true]
  exact (stackedLoop_spec width _ (by norm_num [heightOffsetStacked])
    (g.top.preferredHeight width).min_nonneg (g.top.preferredHeight width).min_le_nat).1

theorem getPreferredHeight_spec :
    (g.layout.getPreferredHeight g.children width).1 ≤ (g.layout.getPreferredHeight g.children width).2 ∧
      g.layout.expansion * minHeight width g.layout.header ≤
        (g.layout.getPreferredHeight g.children width).1 ∧
      (g.top.visible = true → minHeight width g.top + g.layout.expansion * minHeight width g.layout.header ≤
        (g.layout.getPreferredHeight g.children width).1) ∧
      (g.layout.expansion = 1 → minHeight width g.top + (g.stack.map (minHeight width)).sum +
        minHeight width g.layout.header ≤ (g.layout.getPreferredHeight g.children width).1) := by
  obtain ⟨hexpanded, hexpandedNat⟩ := getExpandedHeight_spec (g := g) width
  obtain ⟨hstacked, hstackedNat⟩ := @stackedLoop_spec g.layout width g.children heightOffsetStacked (0, 0)
    maxVisibleStackedMessages (by norm_num [heightOffsetStacked]) (le_refl 0) (le_refl 0)
  have htop := stackedLoop_top (g := g) width
  have hheader := minHeight_nonneg width g.layout.header
  have hfirst := minHeight_nonneg width g.top
  have hrest := sum_minHeight_nonneg width g.stack
  have he := g.layout.nonneg
  have he' : 0 ≤ 1 - g.layout.expansion := sub_nonneg.mpr g.layout.le_one
  unfold Layout.getPreferredHeight
  generalize g.layout.stackedLoop width heightOffsetStacked (0, 0) maxVisibleStackedMessages g.children =
    stacked at hstacked hstackedNat htop ⊢
  generalize g.layout.getExpandedHeight g.children width = expanded at hexpanded hexpandedNat ⊢
  obtain ⟨min, nat⟩ := stacked
  obtain ⟨minExpanded, natExpanded⟩ := expanded
  dsimp only at *
  -- the height is between that of the stack and that of the expanded group
  have hmin : min + g.layout.expansion * (minExpanded - min) =
      (1 - g.layout.expansion) * min + g.layout.expansion * minExpanded := by ring
  have hnat : nat + g.layout.expansion * (natExpanded - nat) =
      (1 - g.layout.expansion) * nat + g.layout.expansion * natExpanded := by ring
  rw [hmin, hnat]
  have hlow : g.layout.expansion * (minHeight width g.top + minHeight width g.layout.header) ≤
      g.layout.expansion * minExpanded := mul_le_mul_of_nonneg_left (by linarith) he
  refine ⟨?_, ?_, fun hvisible => ?_, fun hone => ?_⟩
  · exact add_le_add (mul_le_mul_of_nonneg_left hstackedNat he') (mul_le_mul_of_nonneg_left hexpandedNat he)
  · have hstack : 0 ≤ (1 - g.layout.expansion) * min := mul_nonneg he' hstacked
    have hmore : 0 ≤ g.layout.expansion * minHeight width g.top := mul_nonneg he hfirst
    linarith
  · have hstack : (1 - g.layout.expansion) * minHeight width g.top ≤ (1 - g.layout.expansion) * min :=
      mul_le_mul_of_nonneg_left (htop hvisible) he'
    linarith
  · rw [hone, hexpanded]
    linarith

/-! ## The stack -/

theorem stackLoop_map_fst (childWidth fullY2 : ℚ) (stack : List Child) :
    ∀ (box : ActorBox) (heightOffset : ℚ),
      (s.stackLoop childWidth fullY2 box heightOffset stack).map (·.1) = stack := by
  induction stack with
  | nil => exact fun _ _ => rfl
  | cons c stack ih =>
    intro box heightOffset
    rw [Layout.stackLoop]
    dsimp only
    split <;> rw [List.map_cons, ih]

theorem offset_nonneg {heightOffset : ℚ} (hoffset : 0 ≤ heightOffset) (width : ℚ) (c : Child) :
    0 ≤ heightOffset + s.expansion * ((c.preferredHeight width).min - heightOffset) := by
  have hmin := mul_nonneg s.nonneg (c.preferredHeight width).min_nonneg
  have hrest := mul_nonneg (sub_nonneg.mpr s.le_one) hoffset
  linarith

/-- The bottoms do not go up, nor out of the box. Induction on the messages: from a bottom outside the
box, as that of a hidden first message may be, the next one is at its end. -/
theorem stackLoop_bottoms (childWidth fullY2 : ℚ) (stack : List Child) :
    ∀ {box : ActorBox} {heightOffset : ℚ}, 0 ≤ heightOffset →
      (∀ m ∈ s.stackLoop childWidth fullY2 box heightOffset stack,
        min box.y2 fullY2 ≤ m.2.y2 ∧ m.2.y2 ≤ fullY2) ∧
      (s.stackLoop childWidth fullY2 box heightOffset stack).Pairwise (·.2.y2 ≤ ·.2.y2) := by
  induction stack with
  | nil => exact fun _ => ⟨fun _ h => absurd h List.not_mem_nil, .nil⟩
  | cons c stack ih =>
    intro box heightOffset hoffset
    have hdown := offset_nonneg (s := s) hoffset childWidth c
    rw [Layout.stackLoop]
    dsimp only
    split
    · obtain ⟨hinside, hpairwise⟩ := @ih ⟨box.x1 + (1 - s.expansion) * widthOffsetStacked,
        fullY2 - (c.preferredHeight childWidth).min, box.x2 - (1 - s.expansion) * widthOffsetStacked, fullY2⟩
        heightOffset hoffset
      refine ⟨?_, .cons (fun m hm => ?_) hpairwise⟩
      · intro m hm
        rcases List.mem_cons.mp hm with rfl | hm
        · exact ⟨min_le_right _ _, le_refl fullY2⟩
        · obtain ⟨hlow, hhigh⟩ := hinside m hm
          rw [min_self] at hlow
          exact ⟨(min_le_right _ _).trans hlow, hhigh⟩
      · have hlow := (hinside m hm).1
        rw [min_self] at hlow
        exact hlow
    · next hfits =>
      rw [not_lt] at hfits
      obtain ⟨hinside, hpairwise⟩ := @ih ⟨box.x1 + (1 - s.expansion) * widthOffsetStacked,
        box.y2 + (heightOffset + s.expansion * ((c.preferredHeight childWidth).min - heightOffset)) -
          (c.preferredHeight childWidth).min, box.x2 - (1 - s.expansion) * widthOffsetStacked,
        box.y2 + (heightOffset + s.expansion * ((c.preferredHeight childWidth).min - heightOffset))⟩
        (heightOffset / heightOffsetReductionStacked)
        (by unfold heightOffsetReductionStacked; positivity)
      simp only [min_eq_left hfits] at hinside
      refine ⟨?_, .cons (fun m hm => (hinside m hm).1) hpairwise⟩
      intro m hm
      rcases List.mem_cons.mp hm with rfl | hm
      · exact ⟨(min_le_left _ _).trans (by dsimp only; linarith), hfits⟩
      · obtain ⟨hlow, hhigh⟩ := hinside m hm
        exact ⟨(min_le_left _ _).trans (by linarith), hhigh⟩

theorem stackLoop_expanded (hone : s.expansion = 1) (childWidth fullY2 : ℚ) (stack : List Child) :
    ∀ {box : ActorBox} {heightOffset : ℚ},
      box.y2 + (stack.map (minHeight childWidth)).sum ≤ fullY2 →
      (s.stackLoop childWidth fullY2 box heightOffset stack).map (fun m => (m.2.y1, m.1)) =
          Strips.place 0 (minHeight childWidth) box.y2 stack ∧
        ∀ m ∈ s.stackLoop childWidth fullY2 box heightOffset stack,
          m.2.y2 = m.2.y1 + minHeight childWidth m.1 := by
  induction stack with
  | nil => exact fun _ => ⟨rfl, fun _ h => absurd h List.not_mem_nil⟩
  | cons c stack ih =>
    intro box heightOffset hroom
    rw [List.map_cons, List.sum_cons] at hroom
    have hrest := sum_minHeight_nonneg childWidth stack
    have hdown : box.y2 + (heightOffset + s.expansion * ((c.preferredHeight childWidth).min - heightOffset)) =
        box.y2 + minHeight childWidth c := by
      rw [hone]
      show _ = box.y2 + (c.preferredHeight childWidth).min
      ring
    have hstart : box.y2 + minHeight childWidth c - (c.preferredHeight childWidth).min = box.y2 :=
      add_sub_cancel_right _ _
    have hfits : ¬box.y2 + minHeight childWidth c > fullY2 := not_lt.mpr (by linarith)
    rw [Layout.stackLoop, hdown]
    simp only [if_neg hfits, hstart]
    obtain ⟨hplace, hheight⟩ := @ih ⟨box.x1 + (1 - s.expansion) * widthOffsetStacked, box.y2,
      box.x2 - (1 - s.expansion) * widthOffsetStacked, box.y2 + minHeight childWidth c⟩
      (heightOffset / heightOffsetReductionStacked) (by dsimp only; linarith)
    constructor
    · rw [List.map_cons, hplace, Strips.place, add_zero]
    · intro m hm
      rcases List.mem_cons.mp hm with rfl | hm
      · rfl
      · exact hheight m hm

/-! ## The group -/

def Group.topBox (g : Group) (box : ActorBox) : ActorBox :=
  let width := box.x2 - box.x1
  let y1 :=
    if g.layout.header.visible then box.y1 + g.layout.expansion * minHeight width g.layout.header else box.y1
  ⟨box.x1, y1, box.x2, y1 + minHeight width g.top⟩

theorem allocate_children (box : ActorBox) :
    (g.layout.allocate g.children box).messages = (g.top, g.topBox box) ::
        g.layout.stackLoop (box.x2 - box.x1) box.y2 (g.topBox box) heightOffsetStacked g.stack ∧
      (g.layout.header.visible = true → (g.layout.allocate g.children box).header =
        some ⟨box.x1, box.y1, box.x2, box.y1 + minHeight (box.x2 - box.x1) g.layout.header⟩) := by
  have hlength : ¬g.children.length < 3 := by simp [Group.children]
  unfold Layout.allocate Group.topBox
  simp only [if_neg hlength]
  cases hvisible : g.layout.header.visible with
  | false =>
    refine ⟨?_, fun h => by cases h⟩
    simp only [Group.children, List.dropLast_concat, Bool.false_eq_true, if_false]
    rfl
  | true =>
    refine ⟨?_, fun _ => rfl⟩
    simp only [Group.children, List.dropLast_concat, if_true, add_sub_cancel_left]
    rfl

theorem preferred_stacks (box : ActorBox) (hbox : g.Preferred box) : g.Stacks box := by
  obtain ⟨hmessages, hheader⟩ := allocate_children (g := g) box
  obtain ⟨hnat, hroom, htopRoom, hall⟩ := getPreferredHeight_spec (g := g) (box.x2 - box.x1)
  -- the natural height is no less than the minimal one
  have hheight : (g.layout.getPreferredHeight g.children (box.x2 - box.x1)).1 ≤ box.y2 - box.y1 := by
    rcases hbox with hbox | hbox
    · exact hbox.ge
    · exact hbox ▸ hnat
  have hfirst := minHeight_nonneg (box.x2 - box.x1) g.top
  have hsize := minHeight_nonneg (box.x2 - box.x1) g.layout.header
  have hpart := mul_nonneg g.layout.nonneg hsize
  have hstart : box.y1 ≤ (g.topBox box).y1 ∧
      (g.topBox box).y1 ≤ box.y1 + g.layout.expansion * minHeight (box.x2 - box.x1) g.layout.header := by
    unfold Group.topBox
    dsimp only
    split <;> constructor <;> linarith
  have hbottom : (g.topBox box).y2 = (g.topBox box).y1 + minHeight (box.x2 - box.x1) g.top := rfl
  obtain ⟨hinside, hpairwise⟩ := @stackLoop_bottoms g.layout (box.x2 - box.x1) box.y2 g.stack (g.topBox box)
    heightOffsetStacked (by norm_num [heightOffsetStacked])
  have htop : g.top.visible = true → (g.topBox box).y2 ≤ box.y2 := by
    intro hvisible
    have hthis := htopRoom hvisible
    linarith
  refine ⟨?_, ?_, ?_, fun hone hvisible => ?_⟩
  · rw [hmessages, List.map_cons, stackLoop_map_fst]
  · rw [hmessages]
    intro m hm hvisible
    rcases List.mem_cons.mp hm with rfl | hm
    · exact ⟨by dsimp only; linarith, htop hvisible⟩
    · obtain ⟨hlow, hhigh⟩ := hinside m hm
      have hmin : box.y1 ≤ min (g.topBox box).y2 box.y2 := le_min (by linarith) (by linarith)
      exact ⟨hmin.trans hlow, hhigh⟩
  · rw [hmessages]
    cases hvisible : g.top.visible with
    | false =>
      simp only [List.filter_cons, hvisible, Bool.false_eq_true, if_false]
      exact hpairwise.filter _
    | true =>
      simp only [List.filter_cons, hvisible, if_true]
      refine .cons (fun m hm => ?_) (hpairwise.filter _)
      have hlow := (hinside m (List.mem_filter.mp hm).1).1
      rw [min_eq_left (htop hvisible)] at hlow
      exact hlow
  · have hend : (g.topBox box).y1 = box.y1 + minHeight (box.x2 - box.x1) g.layout.header := by
      unfold Group.topBox
      dsimp only
      rw [if_pos hvisible, hone, one_mul]
    have hfull := hall hone
    obtain ⟨hplace, hheights⟩ := @stackLoop_expanded g.layout hone (box.x2 - box.x1) box.y2 g.stack
      (g.topBox box) heightOffsetStacked (by linarith)
    have hplaceAll : (g.layout.allocate g.children box).messages.map (fun m => (m.2.y1, m.1)) =
        Strips.place 0 (minHeight (box.x2 - box.x1)) (g.topBox box).y1 (g.top :: g.stack) := by
      rw [hmessages, List.map_cons, hplace, Strips.place, add_zero]
      rfl
    have hheightAll : ∀ m ∈ (g.layout.allocate g.children box).messages,
        m.2.y2 = m.2.y1 + minHeight (box.x2 - box.x1) m.1 := by
      rw [hmessages]
      intro m hm
      rcases List.mem_cons.mp hm with rfl | hm
      · rfl
      · exact hheights m hm
    have hsizes : ∀ c ∈ g.top :: g.stack, 0 ≤ minHeight (box.x2 - box.x1) c :=
      fun c _ => minHeight_nonneg _ c
    refine ⟨_, hheader hvisible, .cons (fun b hb => ?_) ?_, add_sub_cancel_left _ _, fun m hm => ?_⟩
    · obtain ⟨m, hm, rfl⟩ := List.mem_map.mp hb
      have hmem := List.mem_map_of_mem (f := fun m : Child × ActorBox => (m.2.y1, m.1)) hm
      rw [hplaceAll] at hmem
      exact hend.ge.trans (Strips.place_bounds (le_refl 0) hsizes hmem).1
    · have hapart := Strips.place_pairwise (x := (g.topBox box).y1) (le_refl 0) hsizes
      rw [← hplaceAll, List.pairwise_map] at hapart
      rw [List.pairwise_map]
      refine hapart.imp_of_mem fun hm _ hle => ?_
      rw [hheightAll _ hm]
      exact hle
    · rw [hheightAll m hm]
      exact add_sub_cancel_left _ _

/-- The messages and the header are always where they belong; the width is right if the first message,
which is forgotten, does not need it. -/
theorem lays_iff_covered (g : Group) (forHeight : ℚ) : g.Lays forHeight ↔ g.Covered forHeight := by
  unfold Group.Lays
  rw [measures_iff]
  exact ⟨fun h => h.1, fun h => ⟨h, fun box hbox => preferred_stacks box hbox⟩⟩

def fixedChild (actor : ℕ) (width height : ℕ) : Child :=
  let size (n : ℕ) : Size := ⟨n, n, Nat.cast_nonneg n, le_refl _⟩
  ⟨actor, true, fun _ => size width, fun _ => size height⟩

def wideFirst : Group where
  layout := ⟨fixedChild 0 0 0, fixedChild 1 200 30, 1, zero_le_one, le_refl 1⟩
  top := fixedChild 2 300 80
  stack := [fixedChild 3 200 80]
  header_ne_cover := by decide
  messages_ne := by decide

/-- The width is that of the narrower ones. -/
theorem not_lays_wideFirst :
    wideFirst.layout.getPreferredWidth wideFirst.children (-1) = (200, 200) ∧ ¬wideFirst.Lays (-1) := by
  have hnarrow : widest (fun c => (c.preferredWidth (-1)).min) (wideFirst.stack ++ [wideFirst.layout.header]) =
      200 := by simp [widest, wideFirst, fixedChild]
  have hnat : widest (fun c => (c.preferredWidth (-1)).nat) (wideFirst.stack ++ [wideFirst.layout.header]) =
      200 := by simp [widest, wideFirst, fixedChild]
  refine ⟨by rw [getPreferredWidth_eq, hnarrow, hnat], fun hlays => ?_⟩
  rcases (measures_iff (-1)).mp hlays.1 with hhidden | ⟨hle, -⟩
  · cases hhidden
  · rw [hnarrow] at hle
    have hwide : (wideFirst.top.preferredWidth (-1)).min = 300 := rfl
    rw [hwide] at hle
    norm_num at hle

end MessageGroupExpanderLayout
