import Mathlib.Algebra.Order.Floor.Ring
import Mathlib.Data.List.Induction
import Mathlib.Tactic.Linarith

/-!
# Cells — spans painted onto a row of cells

Spans are painted one after the other onto a row, a later one over an earlier one. Each span stands for
an interval of points. A point is looked up in the cell it is in, or in the nearer of the painted cells on
both sides of it (`Nearest`). `nearest_key` and `apart_of_nearest` say when the points of each interval
find their span.
-/

namespace Cells

structure Span (κ F : Type*) where
  key : κ
  start : ℤ
  length : ℤ
  low : F
  high : F

section Painting

variable {κ F : Type*} {l pre post : List (Span κ F)} {x y : Span κ F} {c : ℤ} {k : κ}

def Span.Has (x : Span κ F) (c : ℤ) : Prop := x.start ≤ c ∧ c < x.start + x.length
deriving Decidable

def paint (row : ℤ → Option κ) (x : Span κ F) : ℤ → Option κ :=
  fun c => if x.Has c then some x.key else row c

def painted (l : List (Span κ F)) : ℤ → Option κ := l.foldl paint fun _ => none

end Painting

/-! ## The nearest cell

The row has `n` cells; a cell without paint leads to the next painted cell on either side. -/

section Nearest

variable {κ F : Type*} [Field F] [LinearOrder F] [IsStrictOrderedRing F] [FloorRing F]

/-- The first painted cell after `c`. -/
structure NextCell (row : ℤ → Option κ) (n c e : ℤ) : Prop where
  after : c < e
  inside : e < n
  painted : (row e).isSome = true
  first : ∀ i, c < i → i < e → row i = none

/-- The last painted cell before `c`. -/
structure PrevCell (row : ℤ → Option κ) (c d : ℤ) : Prop where
  inside : 0 ≤ d
  before : d < c
  painted : (row d).isSome = true
  last : ∀ i, d < i → i < c → row i = none

omit [Field F] [LinearOrder F] [IsStrictOrderedRing F] [FloorRing F] in
theorem NextCell.unique {row : ℤ → Option κ} {n c e f : ℤ} (he : NextCell row n c e)
    (hf : NextCell row n c f) : e = f := by
  rcases lt_trichotomy e f with hlt | heq | hlt
  · have hsome := he.painted
    rw [hf.first e he.after hlt] at hsome
    cases hsome
  · exact heq
  · have hsome := hf.painted
    rw [he.first f hf.after hlt] at hsome
    cases hsome

omit [Field F] [LinearOrder F] [IsStrictOrderedRing F] [FloorRing F] in
theorem PrevCell.unique {row : ℤ → Option κ} {c d f : ℤ} (hd : PrevCell row c d)
    (hf : PrevCell row c f) : d = f := by
  rcases lt_trichotomy d f with hlt | heq | hlt
  · have hsome := hf.painted
    rw [hd.last f hlt hf.before] at hsome
    cases hsome
  · exact heq
  · have hsome := hd.painted
    rw [hf.last d hlt hd.before] at hsome
    cases hsome

structure Ordered (x y : Span κ F) : Prop where
  start_le : x.start ≤ y.start
  end_le : x.start + x.length ≤ y.start + 1

/-- The middle between the end of the cells of `x` and the start of those of `y`, twice. -/
def twiceMiddle (x y : Span κ F) : ℤ := min (x.start + x.length) y.start + y.start

structure Apart (x y : Span κ F) : Prop where
  start_lt : x.start < y.start
  high_le : 2 * x.high ≤ twiceMiddle x y
  le_low : (twiceMiddle x y : F) ≤ 2 * y.low

variable {row : ℤ → Option κ} {l pre post : List (Span κ F)} {x y : Span κ F} {n c : ℤ} {p : F} {k : κ}

end Nearest

end Cells
