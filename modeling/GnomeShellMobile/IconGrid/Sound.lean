import Mathlib.Data.Finset.Card
import Mathlib.Data.List.Perm.Lattice
import GnomeShellMobile.IconGrid.Layout

/-!
# IconGrid — sound layouts and the updates of a page

A layout is `Sound` for a set of items if the records and the pages tell the same and the cached
lists of visible children are right; a page `Fits` if it has no more visible children than places.
This module has the three updates everything else is made of (an item leaves a page, an item enters
a page, an empty page is removed) and what each does to a sound layout.
-/

namespace IconGrid

open Attempts

variable {ι : Type}

namespace Layout

variable {p : ℕ} {l : Layout ι} {x : ι} {s : Props ι}

/-! ## The children of a page -/

def childrenAt (l : Layout ι) (p : ℕ) : List ι := ((l.pages[p]?).map Page.children).getD []

def shownAt (s : Props ι) (l : Layout ι) (p : ℕ) : List ι := (l.childrenAt p).filter s.visible

theorem childrenAt_of_getElem? {page : Page ι}
    (h : l.pages[p]? = some page) : l.childrenAt p = page.children := by
  simp [childrenAt, h]

theorem childrenAt_of_le (h : l.pages.length ≤ p) : l.childrenAt p = [] := by
  simp [childrenAt, List.getElem?_eq_none h]

theorem lt_length_of_mem (h : x ∈ l.childrenAt p) : p < l.pages.length := by
  by_contra hle
  rw [childrenAt_of_le (by omega)] at h
  cases h

theorem childrenAt_congr {l l' : Layout ι} (h : l'.pages[p]? = l.pages[p]?) :
    l'.childrenAt p = l.childrenAt p := by
  simp [childrenAt, h]

/-- The records and the pages tell the same, and the items are those of `A`. -/
structure Holds (l : Layout ι) (A : Finset ι) : Prop where
  record : ∀ x p, l.items x = some p ↔ x ∈ l.childrenAt p
  nodup : ∀ p, (l.childrenAt p).Nodup
  linked : ∀ x, l.items x ≠ none ↔ x ∈ A

theorem Holds.lt_length {A : Finset ι} (hl : l.Holds A)
    (hx : l.items x = some p) : p < l.pages.length :=
  lt_length_of_mem ((hl.record x p).mp hx)

/-- The cached list of the visible children of page `p` is right. -/
def Cached (s : Props ι) (l : Layout ι) (p : ℕ) : Prop :=
  ∀ page, l.pages[p]? = some page → page.visibleChildren = some (page.children.filter s.visible)

/-- Sound but for the cached lists of the pages before `k`. -/
structure SoundFrom (s : Props ι) (k : ℕ) (l : Layout ι) (A : Finset ι) : Prop
    extends Holds l A where
  cached : ∀ p, k ≤ p → l.Cached s p

abbrev Sound (s : Props ι) (l : Layout ι) (A : Finset ι) : Prop := SoundFrom s 0 l A

/-- Page `p` has no more visible children than places. -/
def Fits (s : Props ι) (l : Layout ι) (p : ℕ) : Prop := (l.shownAt s p).length ≤ s.itemsPerPage

theorem fits_of_le (h : l.pages.length ≤ p) : l.Fits s p := by
  simp [Fits, shownAt, childrenAt_of_le h]

theorem fits_congr {l l' : Layout ι} (h : l'.pages[p]? = l.pages[p]?) :
    l'.Fits s p ↔ l.Fits s p := by
  simp [Fits, shownAt, childrenAt_congr h]

theorem cached_congr {l l' : Layout ι} (h : l'.pages[p]? = l.pages[p]?) :
    l'.Cached s p ↔ l.Cached s p := by
  simp [Cached, h]

theorem itemsPerPage_pos (s : Props ι) : 1 ≤ s.itemsPerPage :=
  Nat.mul_pos s.columns_pos s.rows_pos

theorem SoundFrom.visibleChildren_eq {k : ℕ} {A : Finset ι}
    (hl : l.SoundFrom s k A) (hk : k ≤ p) (hp : p < l.pages.length) :
    l.visibleChildren p = .ok (l.shownAt s p) := by
  obtain ⟨page, hpage⟩ : ∃ page, l.pages[p]? = some page := ⟨_, List.getElem?_eq_getElem hp⟩
  have hcached := hl.cached p hk page hpage
  simp [visibleChildren, hpage, hcached, shownAt, childrenAt]

theorem Holds.items_eq_iff {l l' : Layout ι} {A B : Finset ι} (hl : l.Holds A)
    (hl' : l'.Holds B) {q : ℕ} (h : l'.pages[q]? = l.pages[q]?) (x : ι) :
    l'.items x = some q ↔ l.items x = some q := by
  rw [hl.record, hl'.record, childrenAt_congr h]

theorem sound_empty (s : Props ι) : (empty : Layout ι).Sound s ∅ where
  record := by simp [empty, childrenAt]
  nodup := by simp [empty, childrenAt]
  linked := by simp [empty]
  cached := by simp [Cached, empty]

/-! ## Setting a page -/

variable (s)

/-- Page `p` gets the children `xs`, and the list of the visible ones is computed. -/
def withPage (l : Layout ι) (p : ℕ) (xs : List ι) : Layout ι :=
  { l with pages := l.pages.set p ⟨xs, some (xs.filter s.visible)⟩ }

@[simp] theorem length_withPage (l : Layout ι) (p : ℕ) (xs : List ι) :
    (l.withPage s p xs).pages.length = l.pages.length := by
  simp [withPage]

@[simp] theorem items_withPage (l : Layout ι) (p : ℕ) (xs : List ι) :
    (l.withPage s p xs).items = l.items := rfl

theorem getElem?_withPage_ne (l : Layout ι) {p q : ℕ} (xs : List ι) (h : q ≠ p) :
    (l.withPage s p xs).pages[q]? = l.pages[q]? :=
  List.getElem?_set_ne (Ne.symm h)

theorem getElem?_withPage_self (l : Layout ι) (xs : List ι) (h : p < l.pages.length) :
    (l.withPage s p xs).pages[p]? = some ⟨xs, some (xs.filter s.visible)⟩ :=
  List.getElem?_set_self h

theorem childrenAt_withPage (l : Layout ι) (xs : List ι)
    (h : p < l.pages.length) (q : ℕ) :
    (l.withPage s p xs).childrenAt q = if q = p then xs else l.childrenAt q := by
  by_cases hq : q = p
  · subst hq
    rw [if_pos rfl, childrenAt_of_getElem? (getElem?_withPage_self s l xs h)]
  · rw [if_neg hq, childrenAt_congr (getElem?_withPage_ne s l xs hq)]

theorem cached_withPage (l : Layout ι) (xs : List ι)
    {q : ℕ} (h : q ≠ p → l.Cached s q) : (l.withPage s p xs).Cached s q := by
  by_cases hq : q = p
  · subst hq
    intro page hpage
    have hlt : q < l.pages.length := by
      have := (List.getElem?_eq_some_iff.mp hpage).1
      simpa using this
    rw [getElem?_withPage_self s l xs hlt] at hpage
    cases hpage
    rfl
  · exact (cached_congr (getElem?_withPage_ne s l xs hq)).mpr (h hq)

variable {s}

theorem spliceIn_perm (xs : List ι) (i : ℤ) (x : ι) : (spliceIn xs i x).Perm (x :: xs) := by
  have h : (spliceIn xs i x).Perm (x :: (xs.take (spliceStart xs.length i) ++
      xs.drop (spliceStart xs.length i))) := List.perm_middle
  rwa [List.take_append_drop] at h

/-! ## The pages that are added -/

section OpenPages

variable {s : Props ι} {l : Layout ι} {A : Finset ι} {p : ℕ}

theorem openPages_of_lt (hp : p < l.pages.length) : l.openPages (some p) = l := by
  have h0 : l.pages.length ≠ 0 := by omega
  simp only [openPages, if_neg h0]
  rw [if_neg]
  simp only [Option.some.injEq]
  omega

theorem openPages_length : l.openPages (some l.pages.length) = l.appendPage := by
  by_cases h0 : l.pages.length = 0
  · simp [openPages, h0, appendPage]
  · simp [openPages, h0]

theorem openPages_none (hp : p = l.pages.length - 1) : l.openPages none = l.openPages (some p) := by
  by_cases h0 : l.pages.length = 0
  · simp [openPages, h0, appendPage, hp]
  · rw [openPages_of_lt (by omega)]
    simp [openPages, h0]

theorem childrenAt_appendPage (q : ℕ) : l.appendPage.childrenAt q = l.childrenAt q := by
  rcases lt_trichotomy q l.pages.length with h | h | h
  · simp [childrenAt, appendPage, List.getElem?_append_left h]
  · subst h
    simp [childrenAt, appendPage]
  · simp [childrenAt, appendPage, List.getElem?_append_right (Nat.le_of_lt h),
      List.getElem?_eq_none (Nat.le_of_lt h)]
    rw [List.getElem?_eq_none (by simp; omega)]
    rfl

theorem Holds.appendPage (hl : l.Holds A) : l.appendPage.Holds A where
  record x q := by
    rw [childrenAt_appendPage]
    exact hl.record x q
  nodup q := by
    rw [childrenAt_appendPage]
    exact hl.nodup q
  linked := hl.linked

theorem getElem?_appendPage {q : ℕ} (h : q ≠ l.pages.length) :
    l.appendPage.pages[q]? = l.pages[q]? := by
  rcases Nat.lt_or_gt_of_ne h with h | h
  · exact List.getElem?_append_left h
  · rw [List.getElem?_eq_none (Nat.le_of_lt h), List.getElem?_eq_none]
    simp only [Layout.appendPage, List.length_append, List.length_singleton]
    omega

section

variable (hp : p ≤ l.pages.length)
include hp

theorem getElem?_openPages_ne {q : ℕ} (hq : q ≠ p) :
    (l.openPages (some p)).pages[q]? = l.pages[q]? := by
  rcases Nat.lt_or_eq_of_le hp with hlt | rfl
  · rw [openPages_of_lt hlt]
  · rw [openPages_length]
    exact getElem?_appendPage hq

theorem length_openPages :
    l.pages.length ≤ (l.openPages (some p)).pages.length ∧
      p < (l.openPages (some p)).pages.length := by
  rcases Nat.lt_or_eq_of_le hp with hlt | rfl
  · rw [openPages_of_lt hlt]
    exact ⟨Nat.le_refl _, hlt⟩
  · rw [openPages_length]
    simp [appendPage]

theorem items_openPages : (l.openPages (some p)).items = l.items := by
  rcases Nat.lt_or_eq_of_le hp with hlt | rfl
  · rw [openPages_of_lt hlt]
  · rw [openPages_length]
    rfl

end

theorem Holds.openPages (hl : l.Holds A) (hp : p ≤ l.pages.length) :
    (l.openPages (some p)).Holds A := by
  rcases Nat.lt_or_eq_of_le hp with hlt | rfl
  · rwa [openPages_of_lt hlt]
  · rw [openPages_length]
    exact hl.appendPage

end OpenPages

/-! ## An empty page is removed -/

def dropPage (l : Layout ι) (p : ℕ) : Layout ι :=
  ⟨l.pages.eraseIdx p, fun x => (l.items x).map fun q => if p < q then q - 1 else q⟩

theorem removePage_of_empty [DecidableEq ι] {l : Layout ι} (hp : p < l.pages.length)
    (h : l.childrenAt p = []) : removePage l p = .ok (l.dropPage p) := by
  have hpage : l.pages[p]? = some l.pages[p] := List.getElem?_eq_getElem hp
  rw [childrenAt_of_getElem? hpage] at h
  simp only [removePage, hpage, h]
  rfl

theorem getElem?_dropPage (l : Layout ι) (p q : ℕ) :
    (l.dropPage p).pages[q]? = if q < p then l.pages[q]? else l.pages[q + 1]? :=
  List.getElem?_eraseIdx

theorem childrenAt_dropPage (l : Layout ι) (p q : ℕ) :
    (l.dropPage p).childrenAt q = if q < p then l.childrenAt q else l.childrenAt (q + 1) := by
  unfold childrenAt
  rw [getElem?_dropPage]
  split <;> rfl

section DropPage

variable {s : Props ι} {l : Layout ι} {A : Finset ι} {p : ℕ}

theorem length_dropPage (hp : p < l.pages.length) :
    (l.dropPage p).pages.length + 1 = l.pages.length := by
  show (l.pages.eraseIdx p).length + 1 = _
  rw [List.length_eraseIdx_of_lt hp]
  omega

theorem SoundFrom.dropPage {k : ℕ} (hl : l.SoundFrom s k A) (hempty : l.childrenAt p = []) :
    (l.dropPage p).SoundFrom s k A where
  record x q := by
    rw [childrenAt_dropPage]
    have hne : l.items x ≠ some p := by
      rw [Ne, hl.record, hempty]
      exact List.not_mem_nil
    show ((l.items x).map fun q => if p < q then q - 1 else q) = some q ↔ _
    split
    · rename_i hq
      rw [← hl.record]
      cases hr : l.items x with
      | none => simp
      | some r =>
        rw [hr] at hne
        have hrp : r ≠ p := fun h => hne (by rw [h])
        simp only [Option.map_some, Option.some.injEq]
        split <;> omega
    · rename_i hq
      rw [← hl.record]
      cases hr : l.items x with
      | none => simp
      | some r =>
        rw [hr] at hne
        have hrp : r ≠ p := fun h => hne (by rw [h])
        simp only [Option.map_some, Option.some.injEq]
        split <;> omega
  nodup q := by
    rw [childrenAt_dropPage]
    split
    · exact hl.nodup q
    · exact hl.nodup (q + 1)
  linked x := by
    rw [← hl.linked]
    simp [Layout.dropPage]
  cached q hq page hpage := by
    rw [getElem?_dropPage] at hpage
    split at hpage
    · exact hl.cached q hq page hpage
    · exact hl.cached (q + 1) (Nat.le_succ_of_le hq) page hpage

theorem fits_dropPage (hfits : ∀ q, l.Fits s q) (q : ℕ) : (l.dropPage p).Fits s q := by
  show (((l.dropPage p).childrenAt q).filter s.visible).length ≤ s.itemsPerPage
  rw [childrenAt_dropPage]
  split
  · exact hfits q
  · exact hfits (q + 1)

end DropPage

/-! ## An item leaves its page -/

variable [DecidableEq ι]

def clearItem (l : Layout ι) (x : ι) : Layout ι :=
  { l with items := Function.update l.items x none }

def detach (s : Props ι) (l : Layout ι) (x : ι) (p : ℕ) : Layout ι :=
  (l.withPage s p ((l.childrenAt p).erase x)).clearItem x

theorem length_filter_erase {f : ι → Bool} {xs : List ι} (h : x ∈ xs) :
    (xs.filter f).length = ((xs.erase x).filter f).length + (if f x then 1 else 0) := by
  have hperm := ((List.perm_cons_erase h).filter f).length_eq
  rw [hperm, List.filter_cons]
  split <;> simp

theorem filter_erase {f : ι → Bool} {xs : List ι} (h : xs.Nodup) :
    (xs.erase x).filter f = (xs.filter f).erase x := by
  rw [h.erase_eq_filter, (h.filter f).erase_eq_filter, List.filter_filter, List.filter_filter]
  refine List.filter_congr fun y _ => ?_
  rw [Bool.and_comm]

section Detach

variable {s : Props ι} {k : ℕ} {l : Layout ι} {A : Finset ι} {x : ι} {p : ℕ}

theorem childrenAt_detach (hp : p < l.pages.length) (q : ℕ) : (l.detach s x p).childrenAt q =
      if q = p then (l.childrenAt p).erase x else l.childrenAt q :=
  childrenAt_withPage s l _ hp q

theorem items_detach (y : ι) : (l.detach s x p).items y = if y = x then none else l.items y := by
  simp [detach, clearItem, Function.update_apply]

@[simp] theorem length_detach : (l.detach s x p).pages.length = l.pages.length := by
  simp [detach, clearItem]

theorem getElem?_detach_ne {q : ℕ} (h : q ≠ p) : (l.detach s x p).pages[q]? = l.pages[q]? :=
  getElem?_withPage_ne s l _ h

theorem SoundFrom.detach (hl : l.SoundFrom s k A) (hx : l.items x = some p) :
    (l.detach s x p).SoundFrom s k (A.erase x) where
  record y q := by
    rw [items_detach, childrenAt_detach (hl.lt_length hx)]
    by_cases hyx : y = x
    · subst hyx
      rw [if_pos rfl]
      split
      · simp [(hl.nodup p).mem_erase_iff]
      · -- `x` is on page `p` only
        rename_i hq
        rw [← hl.record, hx]
        simp [Ne.symm hq]
    · rw [if_neg hyx, hl.record]
      split
      · rename_i hq
        rw [hq, List.mem_erase_of_ne hyx]
      · exact Iff.rfl
  nodup q := by
    rw [childrenAt_detach (hl.lt_length hx)]
    split
    · exact (hl.nodup p).erase x
    · exact hl.nodup q
  linked y := by
    rw [items_detach, Finset.mem_erase, ← hl.linked]
    split <;> simp_all
  cached q hq := cached_withPage s l _ fun _ => hl.cached q hq

theorem shownAt_detach (hl : l.Holds A) (hx : l.items x = some p) :
    (l.detach s x p).shownAt s p = (l.shownAt s p).erase x := by
  rw [shownAt, childrenAt_detach (hl.lt_length hx), if_pos rfl]
  exact filter_erase (hl.nodup p)

theorem length_shownAt_detach (hl : l.Holds A) (hx : l.items x = some p) : (l.shownAt s p).length =
      ((l.detach s x p).shownAt s p).length + (if s.visible x then 1 else 0) := by
  rw [shownAt, shownAt, childrenAt_detach (hl.lt_length hx), if_pos rfl]
  exact length_filter_erase ((hl.record x p).mp hx)

theorem Fits.detach (hl : l.Holds A) (hx : l.items x = some p) {q : ℕ} (h : l.Fits s q) :
    (l.detach s x p).Fits s q := by
  by_cases hq : q = p
  · subst hq
    have := length_shownAt_detach (s := s) hl hx
    have hle : (l.shownAt s q).length ≤ s.itemsPerPage := h
    show ((l.detach s x q).shownAt s q).length ≤ s.itemsPerPage
    omega
  · exact (fits_congr (getElem?_detach_ne hq)).mpr h

end Detach

/-! ## An item enters a page -/

/-- Item `x` is put at position `i` of page `p`. -/
def attach (s : Props ι) (l : Layout ι) (x : ι) (p : ℕ) (i : ℤ) : Layout ι :=
  (l.withPage s p (spliceIn (l.childrenAt p) i x)).setItem x p

section Attach

variable {s : Props ι} {k : ℕ} {l : Layout ι} {A : Finset ι} {x : ι} {p : ℕ} {i : ℤ}

theorem childrenAt_attach (hp : p < l.pages.length) (q : ℕ) : (l.attach s x p i).childrenAt q =
      if q = p then spliceIn (l.childrenAt p) i x else l.childrenAt q :=
  childrenAt_withPage s l _ hp q

theorem items_attach (y : ι) :
    (l.attach s x p i).items y = if y = x then some p else l.items y := by
  simp [attach, setItem, Function.update_apply]

@[simp] theorem length_attach : (l.attach s x p i).pages.length = l.pages.length := by
  simp [attach, setItem]

theorem getElem?_attach_ne {q : ℕ} (h : q ≠ p) : (l.attach s x p i).pages[q]? = l.pages[q]? :=
  getElem?_withPage_ne s l _ h

theorem Holds.attach (hl : l.Holds A) (hcached : ∀ q, k ≤ q → q ≠ p → l.Cached s q) (hx : x ∉ A)
    (hp : p < l.pages.length) : (l.attach s x p i).SoundFrom s k (insert x A) where
  record y q := by
    rw [items_attach, childrenAt_attach hp]
    have hnone : l.items x = none := Classical.not_not.mp (mt (hl.linked x).mp hx)
    by_cases hyx : y = x
    · subst hyx
      rw [if_pos rfl]
      split
      · rename_i hq
        simp [(spliceIn_perm (l.childrenAt p) i y).mem_iff, hq]
      · rename_i hq
        rw [← hl.record, hnone]
        simp [Ne.symm hq]
    · rw [if_neg hyx, hl.record]
      split
      · rename_i hq
        simp [(spliceIn_perm (l.childrenAt p) i x).mem_iff, hq, hyx]
      · exact Iff.rfl
  nodup q := by
    rw [childrenAt_attach hp]
    split
    · have hnotMem : x ∉ l.childrenAt p := by
        intro hmem
        have := (hl.record x p).mpr hmem
        exact hx ((hl.linked x).mp (by simp [this]))
      rw [(spliceIn_perm (l.childrenAt p) i x).nodup_iff]
      exact List.nodup_cons.mpr ⟨hnotMem, hl.nodup p⟩
    · exact hl.nodup q
  linked y := by
    rw [items_attach, Finset.mem_insert, ← hl.linked]
    split <;> simp_all
  cached q hq := cached_withPage s l _ (hcached q hq)

theorem length_shownAt_attach (hp : p < l.pages.length) : ((l.attach s x p i).shownAt s p).length =
      (l.shownAt s p).length + (if s.visible x then 1 else 0) := by
  rw [shownAt, shownAt, childrenAt_attach hp, if_pos rfl,
    ((spliceIn_perm (l.childrenAt p) i x).filter s.visible).length_eq, List.filter_cons]
  split <;> simp

end Attach

end Layout

end IconGrid
