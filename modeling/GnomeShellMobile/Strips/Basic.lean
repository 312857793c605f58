import Mathlib.Algebra.BigOperators.Group.List.Basic
import Mathlib.Algebra.Order.Field.Basic
import Mathlib.Tactic.Linarith
import Mathlib.Tactic.Ring

/-!
# Strips — items side by side

Items of some size each are put one after the other, with a gap between them. They stay within the
extent of the strip (`place_bounds`) and apart from each other (`place_pairwise`).
-/

namespace Strips

variable {K α : Type*} [Field K]
variable {gap : K} {size : α → K} {l : List α}

/-- Each item with its position, the first one at `x`. -/
def place (gap : K) (size : α → K) : K → List α → List (K × α)
  | _, [] => []
  | x, a :: l => (x, a) :: place gap size (x + size a + gap) l

def extent (gap : K) (size : α → K) (l : List α) : K :=
  (l.map size).sum + (l.length - 1) * gap

theorem extent_cons (gap : K) (size : α → K) (a : α) (l : List α) :
    extent gap size (a :: l) = size a + gap + extent gap size l := by
  simp only [extent, List.map_cons, List.sum_cons, List.length_cons, Nat.cast_succ]
  ring

theorem mem_of_mem_place {x : K} {p : K × α} (h : p ∈ place gap size x l) : p.2 ∈ l := by
  induction l generalizing x with
  | nil => cases h
  | cons a l ih =>
    rcases List.mem_cons.mp h with rfl | h
    · exact .head _
    · exact .tail _ (ih h)

theorem place_map_snd (gap : K) (size : α → K) (x : K) (l : List α) :
    (place gap size x l).map Prod.snd = l := by
  induction l generalizing x with
  | nil => rfl
  | cons a l ih => rw [place, List.map_cons, ih]

theorem place_map {β : Type*} (f : α → β) (gap : K) (size : α → K) (x : K) (l : List α) :
    (place gap size x l).map (fun p => f p.2) = l.map f := by
  conv_rhs => rw [← place_map_snd gap size x l, List.map_map]
  rfl

variable [LinearOrder K] [IsStrictOrderedRing K]

theorem neg_gap_le_extent (hgap : 0 ≤ gap)
    (hsize : ∀ a ∈ l, 0 ≤ size a) : -gap ≤ extent gap size l := by
  induction l with
  | nil => simp [extent]
  | cons a l ih =>
    have ha := hsize a (.head _)
    have hl := ih fun b hb => hsize b (.tail _ hb)
    rw [extent_cons]
    linarith

/-- Each item lies within the strip. Induction on the items. -/
theorem place_bounds {x : K} (hgap : 0 ≤ gap)
    (hsize : ∀ a ∈ l, 0 ≤ size a) {p : K × α} (h : p ∈ place gap size x l) :
    x ≤ p.1 ∧ p.1 + size p.2 ≤ x + extent gap size l := by
  induction l generalizing x with
  | nil => cases h
  | cons a l ih =>
    have ha := hsize a (.head _)
    have hrest := fun b hb => hsize b (.tail a hb)
    rw [extent_cons]
    rcases List.mem_cons.mp h with rfl | h
    · have hextent := neg_gap_le_extent hgap hrest
      exact ⟨le_refl x, by linarith⟩
    · obtain ⟨hstart, hend⟩ := ih hrest h
      exact ⟨by linarith, by linarith⟩

theorem place_pairwise {x : K} (hgap : 0 ≤ gap) (hsize : ∀ a ∈ l, 0 ≤ size a) :
    (place gap size x l).Pairwise fun p q => p.1 + size p.2 ≤ q.1 := by
  induction l generalizing x with
  | nil => exact .nil
  | cons a l ih =>
    have hrest := fun b hb => hsize b (.tail a hb)
    refine .cons (fun q hq => ?_) (ih hrest)
    have hstart := (place_bounds hgap hrest hq).1
    show x + size a ≤ q.1
    linarith

end Strips
