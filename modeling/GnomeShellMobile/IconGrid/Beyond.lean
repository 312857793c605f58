import Mathlib.Algebra.Order.BigOperators.Group.Finset
import GnomeShellMobile.IconGrid.Partition

/-!
# IconGrid — pages out of range

`addItemToPage` opens one page at most. An item for a page beyond that one is not placed, and the call
throws (`addItemToPage_beyond`); only page 1 of a grid without pages is opened with the page before it
(`addItemToPage_second`).
-/

namespace IconGrid

open Attempts

variable {ι : Type} [DecidableEq ι]

namespace Layout

section Beyond

variable {s : Props ι} {l : Layout ι} {A : Finset ι} {x : ι} {p : ℕ}

omit [DecidableEq ι] in
theorem length_openPages_beyond (hp : l.pages.length < p) (hne : ¬ (l.pages.length = 0 ∧ p = 1)) :
    (l.openPages (some p)).pages.length ≤ p := by
  by_cases h0 : l.pages.length = 0
  · have hp1 : p ≠ 1 := fun h => hne ⟨h0, h⟩
    simp [openPages, h0, appendPage, hp1]
    omega
  · have hpl : p ≠ l.pages.length := by omega
    simp [openPages, h0, hpl]
    omega

theorem addItemToPage_beyond (remove : PageRemoval ι) (hp : l.pages.length < p)
    (hne : ¬ (l.pages.length = 0 ∧ p = 1)) (index : ℤ) (n : ℕ) :
    ∃ l', addItemToPage s remove (n + 1) l x (some p) index = .error (.thrown l') := by
  have hnone : (l.openPages (some p)).pages[p]? = none :=
    List.getElem?_eq_none (length_openPages_beyond hp hne)
  refine ⟨if index = -1 then l.openPages (some p) else (l.openPages (some p)).setItem x p, ?_⟩
  rw [addItemToPage]
  simp only [Option.getD_some, placeItem, hnone]
  rfl

def second (s : Props ι) (l : Layout ι) (x : ι) (index : ℤ) : Layout ι :=
  l.appendPage.appendPage.attach s x 1 (l.appendPage.appendPage.indexAt 1 index)

theorem Sound.second (hl : l.Sound s A) (hempty : l.pages.length = 0) (hx : x ∉ A) (index : ℤ) :
    (l.second s x index).SoundFrom s 1 (insert x A) := by
  have hlength : l.appendPage.appendPage.pages.length = 2 := by simp [appendPage, hempty]
  refine hl.toHolds.appendPage.appendPage.attach (fun q hq hne page hpage => ?_) hx (by omega)
  have := (List.getElem?_eq_some_iff.mp hpage).1
  omega

theorem addItemToPage_second (remove : PageRemoval ι) (hl : l.Sound s A)
    (hempty : l.pages.length = 0) (hx : x ∉ A) (index : ℤ) (n : ℕ) :
    addItemToPage s remove (n + 2) l x (some 1) index = .ok (l.second s x index) := by
  have hopen : l.openPages (some 1) = l.appendPage.appendPage := by
    simp [openPages, hempty, appendPage]
  have hlength : l.appendPage.appendPage.pages.length = 2 := by simp [appendPage, hempty]
  have hsecond := hl.second hempty hx index
  rw [addItemToPage]
  simp only [Option.getD_some, hopen]
  rw [placeItem_eq (by omega)]
  refine relocateSurplusItems_of_fits hsecond le_rfl (by rw [Layout.second, length_attach]; omega) ?_ n
  have hone : l.appendPage.appendPage.shownAt s 1 = [] := by
    rw [shownAt, childrenAt_appendPage, childrenAt_appendPage, childrenAt_of_le (by omega)]
    rfl
  have hpos := itemsPerPage_pos s
  rw [Fits, Layout.second, length_shownAt_attach (by omega), hone]
  split
  · exact hpos
  · exact Nat.zero_le _

omit [DecidableEq ι] in
theorem Holds.notMem_of_empty (hl : l.Holds A) (hempty : l.pages.length = 0) (y : ι) : y ∉ A := by
  intro hy
  obtain ⟨p, hp⟩ := Option.ne_none_iff_exists'.mp ((hl.linked y).mpr hy)
  have := hl.lt_length hp
  omega

omit [DecidableEq ι] in
theorem findRoom_ge (itemsPerPage length i : ℕ) (pages : List (Page ι)) {q : ℕ}
    (h : findRoom itemsPerPage length i pages = some q) : i ≤ q ∨ q = length := by
  induction pages generalizing i with
  | nil =>
    rw [findRoom] at h
    cases h
    exact .inr rfl
  | cons page rest ih =>
    rw [findRoom] at h
    split at h
    · cases h
    · split at h
      · cases h
        exact .inl le_rfl
      · rcases ih (i + 1) h with hle | heq
        · exact .inl (by omega)
        · exact .inr heq

end Beyond

end Layout

end IconGrid
