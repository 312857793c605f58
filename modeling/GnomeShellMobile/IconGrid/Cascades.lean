import GnomeShellMobile.IconGrid.Moves
import GnomeShellMobile.IconGrid.Order

/-!
# IconGrid — what passes from page to page

Surplus leaves a page at its end and enters the next one at its front, and a vacant place is filled
with the first visible item of the next page, so neither changes the order of the visible items,
through however many pages it goes (`surplus_order`, `vacancies_spec`).

`vacancies_spec` is about any way to remove a page that shows nothing: the strict one, which keeps
all items, and the one of the source, which may lose hidden ones.
-/

namespace IconGrid

open Attempts

variable {ι : Type} [DecidableEq ι]

namespace Layout

/-! ## Surplus items -/

section Surplus

variable {s : Props ι} {k : ℕ} {l l' : Layout ι} {A : Finset ι} {x : ι} {p : ℕ} {remove : PageRemoval ι}

omit [DecidableEq ι] in
theorem order_openPages (hp : p ≤ l.pages.length) : (l.openPages (some p)).order s = l.order s := by
  rcases Nat.lt_or_eq_of_le hp with hlt | rfl
  · rw [openPages_of_lt hlt]
  · rw [openPages_length, order_appendPage]

omit [DecidableEq ι] in
theorem childrenAt_openPages (hp : p ≤ l.pages.length) (q : ℕ) :
    (l.openPages (some p)).childrenAt q = l.childrenAt q := by
  rcases Nat.lt_or_eq_of_le hp with hlt | rfl
  · rw [openPages_of_lt hlt]
  · rw [openPages_length, childrenAt_appendPage]

/-! ### The item is put on its page -/

section

variable (hp : p ≤ l.pages.length)
include hp

variable (index : ℤ)

theorem items_placed (y : ι) :
    (l.placed s x p index).items y = if y = x then some p else l.items y := by
  rw [placed, items_attach, items_openPages hp]

theorem lt_length_placed :
    p < (l.placed s x p index).pages.length := by
  rw [placed, length_attach]
  exact (length_openPages hp).2

theorem childrenAt_placed (q : ℕ) :
    (l.placed s x p index).childrenAt q =
      if q = p then spliceIn (l.childrenAt p) (l.indexAt p index) x else l.childrenAt q := by
  rw [placed, childrenAt_attach (length_openPages hp).2, childrenAt_openPages hp,
    childrenAt_openPages hp, indexAt, childrenAt_openPages hp, indexAt]

theorem length_shownAt_placed :
    ((l.placed s x p index).shownAt s p).length =
      (l.shownAt s p).length + (if s.visible x then 1 else 0) := by
  rw [placed, length_shownAt_attach (length_openPages hp).2, shownAt, childrenAt_openPages hp, shownAt]

end

theorem SoundFrom.placed (hl : l.SoundFrom s k A) (hx : x ∉ A) (hp : p ≤ l.pages.length)
    (index : ℤ) : (l.placed s x p index).SoundFrom s k (insert x A) := by
  refine (hl.toHolds.openPages hp).attach (fun q hkq hq => ?_) hx (length_openPages hp).2
  exact (cached_congr (getElem?_openPages_ne hp hq)).mpr (hl.cached q hkq)

theorem order_placed (hp : p ≤ l.pages.length) (index : ℤ) :
    (l.placed s x p index).order s = l.orderTo s p ++
      (spliceIn (l.childrenAt p) (l.indexAt p index) x).filter s.visible ++ l.orderFrom s (p + 1) := by
  have hbefore : (l.openPages (some p)).orderTo s p = l.orderTo s p :=
    orderTo_congr fun q hq => getElem?_openPages_ne hp (Nat.ne_of_lt hq)
  have hbehind : (l.openPages (some p)).orderFrom s (p + 1) = l.orderFrom s (p + 1) :=
    orderFrom_congr fun q hq => getElem?_openPages_ne hp (by omega)
  rw [placed, order_attach (length_openPages hp).2, hbefore, hbehind, childrenAt_openPages hp,
    indexAt, childrenAt_openPages hp, indexAt]

theorem order_push {init : List ι} (hl : l.Holds A) (hx : l.items x = some p)
    (hlast : l.shownAt s p = init ++ [x]) :
    ((l.detach s x p).placed s x (p + 1) 0).order s = l.order s := by
  have hp := hl.lt_length hx
  have hmem : x ∈ l.shownAt s p := by
    rw [hlast]
    exact List.mem_append_right _ (List.mem_singleton_self x)
  have hvx : s.visible x = true := (List.mem_filter.mp hmem).2
  have hnodup : (l.shownAt s p).Nodup := (hl.nodup p).filter _
  rw [hlast] at hnodup
  -- what is left of page `p`
  have hinit : (l.detach s x p).orderTo s (p + 1) = l.orderTo s p ++ init := by
    rw [orderTo_succ, orderTo_congr fun q hq => getElem?_detach_ne (Nat.ne_of_lt hq),
      shownAt_detach hl hx, hlast, erase_last hnodup]
  have hnext : (spliceIn ((l.detach s x p).childrenAt (p + 1)) ((l.detach s x p).indexAt (p + 1) 0)
      x).filter s.visible = x :: l.shownAt s (p + 1) := by
    rw [childrenAt_congr (getElem?_detach_ne (Nat.succ_ne_self p))]
    show (x :: l.childrenAt (p + 1)).filter s.visible = _
    rw [List.filter_cons_of_pos hvx, shownAt]
  have hbehind : (l.detach s x p).orderFrom s (p + 2) = l.orderFrom s (p + 2) :=
    orderFrom_congr fun q hq => getElem?_detach_ne (by omega)
  rw [order_placed (by rw [length_detach]; exact hp), hinit, hnext, hbehind, order_eq s l p,
    orderFrom_eq s l (p + 1), hlast]
  simp only [List.append_assoc, List.cons_append, List.nil_append]

/-- `_relocateSurplusItems` with fuel `n` keeps the order. -/
def RelocateKeeps (s : Props ι) (remove : PageRemoval ι) (n : ℕ) : Prop :=
  ∀ k l A p, SoundFrom s k l A → k ≤ p → p < l.pages.length → 2 * l.weight s A p + 1 ≤ n →
    Ends False (relocateSurplusItems s remove n l p) fun l' => l'.order s = l.order s

/-- `_addItemToPage` with fuel `n` leaves the order it makes by putting the item on its page. -/
def AddKeeps (s : Props ι) (remove : PageRemoval ι) (n : ℕ) : Prop :=
  ∀ k l A x p index, SoundFrom s k l A → k ≤ p → x ∉ A → p ≤ l.pages.length →
    2 * l.weight s A p + 4 ≤ n →
    Ends False (addItemToPage s remove n l x (some p) index) fun l' =>
      l'.order s = (l.placed s x p index).order s

theorem Overflowing.next_order {n : ℕ} (hadd : AddKeeps s remove n) {rest : List ι}
    (hsurplus : ¬ (l.shownAt s p).length ≤ s.itemsPerPage) (hfuel : 2 * l.weight s A p ≤ n)
    (hl : l.SoundFrom s k A) (hk : k ≤ p) (h : Overflowing s k l A p (x :: rest) l') :
    Ends False (removeItemData s remove n l' x >>= fun l =>
      addItemToPage s remove n l x (some (p + 1)) 0) fun l'' => l''.order s = l'.order s := by
  have hx := (h.waiting x List.mem_cons_self).1
  have hp := h.sound.lt_length hx
  have hweight := h.weight_detach hl hsurplus
  obtain ⟨m, rfl⟩ : ∃ m, n = m + 2 := ⟨n - 2, by omega⟩
  rw [removeItemData_of_surplus h.sound hk hx (h.surplus hsurplus)]
  have hlast : l'.shownAt s p = ((l.shownAt s p).take s.itemsPerPage ++ rest.reverse) ++ [x] := by
    rw [h.shown, List.reverse_cons, List.append_assoc]
  have hspec := hadd k (l'.detach s x p) (A.erase x) x (p + 1) 0 (h.sound.detach hx) (by omega)
    (Finset.notMem_erase x A) (by rw [length_detach]; exact hp) (by omega)
  exact hspec.mono fun l'' h' => h'.trans (order_push h.sound.toHolds hx hlast)

theorem relocateKeeps_succ {n : ℕ} (hadd : AddKeeps s remove n) :
    RelocateKeeps s remove (n + 1) := by
  intro k l A p hl hk hp hfuel
  rw [relocateSurplusItems, hl.visibleChildren_eq hk hp]
  show Ends False (if (l.shownAt s p).length ≤ s.itemsPerPage then _ else _) _
  split
  · rfl
  · next hsurplus =>
    have hloop := Ends.foldlM (h := False)
      (I := fun rest l' => Overflowing s k l A p rest l' ∧ l'.order s = l.order s)
      ⟨hl.overflowing hsurplus, rfl⟩ (f := fun l x => do
      let l ← removeItemData s remove n l x
      addItemToPage s remove n l x (some (p + 1)) 0) fun x rest l' h => ?_
    · exact hloop.mono fun l' h => h.2
    · -- the next state of the loop from the one spec, the order from the other
      have hnext := h.1.next (surplus_spec s remove n).2 hsurplus (by omega) hl hk
      have horder := h.1.next_order hadd hsurplus (by omega) hl hk
      exact ((hnext.and horder).weaken And.right).mono fun l'' h' => ⟨h'.1, h'.2.trans h.2⟩

theorem addKeeps_succ {n : ℕ} (hrelocate : RelocateKeeps s remove n) :
    AddKeeps s remove (n + 1) := by
  intro k l A x p index hl hk hx hp hfuel
  rw [addItemToPage_eq s remove x hp index n]
  show Ends False (relocateSurplusItems s remove n (l.placed s x p index) p) _
  have hweight : (l.placed s x p index).weight s (insert x A) p ≤ l.weight s A p + 1 :=
    weight_attach (items_openPages hp)
  exact hrelocate k _ _ p (hl.placed hx hp index) hk (lt_length_placed hp index) (by omega)

/-- **Surplus items keep the order.** Induction on the fuel, each method from the other. -/
theorem surplus_order (s : Props ι) (remove : PageRemoval ι) (n : ℕ) :
    RelocateKeeps s remove n ∧ AddKeeps s remove n := by
  induction n with
  | zero =>
    refine ⟨fun k l A p hl hk hp hfuel => ?_, fun k l A x p index hl hk hx hp hfuel => ?_⟩ <;>
      omega
  | succ n ih => exact ⟨relocateKeeps_succ ih.2, addKeeps_succ ih.1⟩

end Surplus

/-! ## Vacant places -/

/-- What is left of the items: some of them, and all if `whole` holds. -/
def Keeps (whole : Prop) (A B : Finset ι) : Prop := B ⊆ A ∧ (whole → A ⊆ B)

section Keeps

variable {whole : Prop} {A B C : Finset ι} {x : ι}

omit [DecidableEq ι] in
theorem Keeps.refl (whole : Prop) (A : Finset ι) : Keeps whole A A :=
  ⟨fun _ h => h, fun _ _ h => h⟩

omit [DecidableEq ι] in
theorem Keeps.trans (h : Keeps whole A B) (h' : Keeps whole B C) : Keeps whole A C :=
  ⟨h'.1.trans h.1, fun hw => (h.2 hw).trans (h'.2 hw)⟩

theorem Keeps.insert (hx : x ∈ A) (h : Keeps whole (A.erase x) B) : Keeps whole A (insert x B) := by
  refine ⟨Finset.insert_subset hx (h.1.trans (Finset.erase_subset x A)), fun hw y hy => ?_⟩
  rcases eq_or_ne y x with rfl | hyx
  · exact Finset.mem_insert_self y B
  · exact Finset.mem_insert_of_mem (h.2 hw (Finset.mem_erase.mpr ⟨hyx, hy⟩))

omit [DecidableEq ι] in
theorem Keeps.eq (h : Keeps True A B) : B = A := Finset.Subset.antisymm h.1 (h.2 trivial)

end Keeps

section Vacancies

variable {s : Props ι} {whole : Prop} {l l' : Layout ι} {A B : Finset ι} {x : ι} {p : ℕ}
  {remove : PageRemoval ι}

variable (s)

/-- What removing an empty page `p` or filling its vacant places leaves as it was. -/
structure Drawn (whole : Prop) (l : Layout ι) (A : Finset ι) (p : ℕ)
    (l' : Layout ι) : Prop where
  sound : ∃ B, Keeps whole A B ∧ l'.Sound s B
  fits : ∀ q, l'.Fits s q
  length : l'.pages.length ≤ l.pages.length
  before : ∀ q < p, l'.pages[q]? = l.pages[q]?
  front : l.shownAt s p <+: l'.shownAt s p
  order : l'.order s = l.order s

def Removes (whole : Prop) (remove : PageRemoval ι) : Prop :=
  ∀ l A p, Sound s l A → (∀ q, l.Fits s q) → p < l.pages.length → l.shownAt s p = [] →
    Ends (whole ∧ s.HasHidden) (remove l p) (Drawn s whole l A p)

/-- The specification of `_fillItemVacancies` with fuel `n`. -/
def FillSpec (whole : Prop) (remove : PageRemoval ι) (n : ℕ) : Prop :=
  ∀ l A p, Sound s l A → (∀ q, l.Fits s q) → 2 * (l.pages.length - p) + 1 ≤ n →
    Ends (whole ∧ s.HasHidden) (fillItemVacancies s remove n l p) (Drawn s whole l A p)

/-- The specification of `_removeItemData` with fuel `n`. -/
def RemoveSpec (whole : Prop) (remove : PageRemoval ι) (n : ℕ) : Prop :=
  ∀ l A x p, Sound s l A → (∀ q, l.Fits s q) → l.items x = some p →
    2 * (l.pages.length - p) + 2 ≤ n →
    Ends (whole ∧ s.HasHidden) (removeItemData s remove n l x)
      (Drawn s whole (l.detach s x p) (A.erase x) p)

variable {s}

omit [DecidableEq ι] in
theorem Drawn.refl (hl : l.Sound s A) (hfits : ∀ q, l.Fits s q) : Drawn s whole l A p l where
  sound := ⟨A, .refl whole A, hl⟩
  fits := hfits
  length := le_rfl
  before _ _ := rfl
  front := List.prefix_rfl
  order := rfl

omit [DecidableEq ι] in
theorem Drawn.trans {l'' : Layout ι} (h : Drawn s whole l A p l') (hB : Keeps whole A B)
    (h' : Drawn s whole l' B p l'') : Drawn s whole l A p l'' where
  sound := by
    obtain ⟨C, hC, hsound⟩ := h'.sound
    exact ⟨C, hB.trans hC, hsound⟩
  fits := h'.fits
  length := h'.length.trans h.length
  before q hq := (h'.before q hq).trans (h.before q hq)
  front := h.front.trans h'.front
  order := h'.order.trans h.order

/-! ### The two ways to remove a page -/

omit [DecidableEq ι] in
theorem drawn_dropPage (hl : l.Sound s A) (hfits : ∀ q, l.Fits s q) (hp : p < l.pages.length)
    (hempty : l.childrenAt p = []) : Drawn s whole l A p (l.dropPage p) := by
  have hshown : l.shownAt s p = [] := by rw [shownAt, hempty, List.filter_nil]
  have hlength := length_dropPage hp
  refine ⟨⟨A, .refl whole A, hl.dropPage hempty⟩, fits_dropPage hfits, by omega, fun q hq => ?_, ?_,
    order_dropPage hshown⟩
  · rw [getElem?_dropPage, if_pos hq]
  · rw [hshown]
    exact List.nil_prefix

theorem removes_removeEmptyPage (s : Props ι) : Removes s True removeEmptyPage := by
  intro l A p hl hfits hp hshown
  have hpage : l.pages[p]? = some l.pages[p] := List.getElem?_eq_getElem hp
  have hchildren := childrenAt_of_getElem? hpage
  rw [removeEmptyPage, hpage]
  show Ends _ (if l.pages[p].children = [] then _ else _) _
  split
  · next hempty =>
    rw [← hchildren] at hempty
    rw [removePage_of_empty hp hempty]
    exact drawn_dropPage hl hfits hp hempty
  · next hicons =>
    rw [shownAt, hchildren, List.filter_eq_nil_iff] at hshown
    obtain ⟨y, hy⟩ := List.exists_mem_of_ne_nil _ hicons
    exact ⟨trivial, y, by simpa using hshown y hy⟩

theorem removes_removePage (s : Props ι) : Removes s False removePage := by
  intro l A p hl hfits hp hshown
  have hfits' : ∀ q, (l.emptied s p).Fits s q := by
    intro q
    rcases eq_or_ne q p with rfl | hqp
    · rw [Fits, shownAt, childrenAt_emptied hp]
      exact Nat.zero_le _
    · exact (fits_congr (getElem?_withPage_ne s l [] hqp)).mpr (hfits q)
  have hdrawn : Drawn s False (l.emptied s p) (A \ (l.childrenAt p).toFinset) p
      ((l.emptied s p).dropPage p) :=
    drawn_dropPage (hl.emptied hp) hfits' (by rw [emptied]; simpa using hp) (childrenAt_emptied hp)
  rw [removePage_eq hl.toHolds hp]
  have hlength := hdrawn.length
  have hsame : (l.emptied s p).pages.length = l.pages.length := length_withPage s l p []
  obtain ⟨B, hB, hsound⟩ := hdrawn.sound
  refine ⟨⟨B, ⟨hB.1.trans Finset.sdiff_subset, False.elim⟩, hsound⟩, hdrawn.fits, by omega,
    fun q hq => ?_, ?_, ?_⟩
  · rw [hdrawn.before q hq]
    exact getElem?_withPage_ne s l [] (Nat.ne_of_lt hq)
  · rw [hshown]
    exact List.nil_prefix
  · rw [hdrawn.order, order_emptied hp hshown]

omit [DecidableEq ι] in
theorem removeWithoutIcons_ends (hremove : Removes s whole remove) (hl : l.Sound s A)
    (hfits : ∀ q, l.Fits s q) (hp : p < l.pages.length) :
    Ends (whole ∧ s.HasHidden) (l.removeWithoutIcons remove p (l.shownAt s p))
      (Drawn s whole l A p) := by
  rw [removeWithoutIcons]
  split
  · next hnone => exact hremove l A p hl hfits hp (List.length_eq_zero_iff.mp hnone)
  · exact Drawn.refl hl hfits

theorem removeSpec_succ {n : ℕ} (hremove : Removes s whole remove)
    (hfill : FillSpec s whole remove n) : RemoveSpec s whole remove (n + 1) := by
  intro l A x p hl hfits hx hfuel
  have hp := hl.lt_length hx
  rw [removeItemData_eq hl (Nat.zero_le p) hx]
  refine (removeWithoutIcons_ends hremove (hl.detach hx) (fun q => (hfits q).detach hl.toHolds hx)
    (by rw [length_detach]; exact hp)).bind fun l' h => ?_
  split
  · exact h
  · have hlength := h.length
    rw [length_detach] at hlength
    obtain ⟨B, hB, hsound⟩ := h.sound
    exact (hfill l' B p hsound h.fits (by omega)).mono fun l'' h' => h.trans hB h'

/-! ### The loop -/

theorem addItemToPage_of_fits (remove : PageRemoval ι) (hl : l.Sound s A) (hx : x ∉ A)
    (hp : p ≤ l.pages.length) {index : ℤ} (hfits : (l.placed s x p index).Fits s p) (n : ℕ) :
    addItemToPage s remove (n + 2) l x (some p) index = .ok (l.placed s x p index) := by
  have hplaced := hl.placed hx hp index
  rw [addItemToPage_eq s remove x hp]
  exact relocateSurplusItems_of_fits hplaced (Nat.zero_le p) (lt_length_placed hp index) hfits n

theorem addItemToPage_of_room (remove : PageRemoval ι) (hl : l.Sound s A) (hx : x ∉ A)
    (hp : p < l.pages.length) (hroom : (l.shownAt s p).length < s.itemsPerPage) (n : ℕ) :
    addItemToPage s remove (n + 2) l x (some p) (-1) =
      .ok (l.attach s x p (l.childrenAt p).length) := by
  have heq : l.placed s x p (-1) = l.attach s x p (l.childrenAt p).length := by
    rw [placed, openPages_of_lt hp, indexAt, if_pos rfl]
  rw [← heq]
  refine addItemToPage_of_fits remove hl hx (Nat.le_of_lt hp) ?_ n
  rw [Fits, length_shownAt_placed (Nat.le_of_lt hp)]
  split <;> omega

omit [DecidableEq ι] in
theorem spliceIn_length (xs : List ι) (x : ι) : spliceIn xs xs.length x = xs ++ [x] := by
  have hstart : spliceStart xs.length xs.length = xs.length := by
    rw [spliceStart, if_neg (Int.not_lt.mpr (Int.natCast_nonneg _)), Int.toNat_natCast]
  rw [spliceIn, hstart, List.take_length, List.drop_length]

theorem shownAt_attach_last (hp : p < l.pages.length) (hvx : s.visible x = true) :
    (l.attach s x p (l.childrenAt p).length).shownAt s p = l.shownAt s p ++ [x] := by
  rw [shownAt, childrenAt_attach hp, if_pos rfl, spliceIn_length, List.filter_append,
    List.filter_cons_of_pos hvx, List.filter_nil, shownAt]

theorem order_pull {l₁ : Layout ι} {tail : List ι} (hl : l.Holds A) (hx : l.items x = some (p + 1))
    (hfront : l.shownAt s (p + 1) = x :: tail) (hbefore : ∀ q < p + 1, l₁.pages[q]? = l.pages[q]?)
    (horder : l₁.order s = (l.detach s x (p + 1)).order s) (hp : p < l₁.pages.length) :
    (l₁.attach s x p (l₁.childrenAt p).length).order s = l.order s := by
  have hvx : s.visible x = true := by
    have hmem : x ∈ l.shownAt s (p + 1) := hfront ▸ List.mem_cons_self
    exact (List.mem_filter.mp hmem).2
  have hto : l₁.orderTo s (p + 1) = l.orderTo s (p + 1) := orderTo_congr hbefore
  have hdetach : (l.detach s x (p + 1)).order s = l.orderTo s (p + 1) ++ tail ++
      l.orderFrom s (p + 2) := by
    rw [order_of_page fun q hq => getElem?_detach_ne hq, shownAt_detach hl hx, hfront,
      List.erase_cons_head]
  -- the pages behind `p` show what they showed, without the item
  have hbehind : l₁.orderFrom s (p + 1) = tail ++ l.orderFrom s (p + 2) := by
    rw [hdetach, order_split s l₁ (p + 1), hto, List.append_assoc] at horder
    exact List.append_cancel_left horder
  have hshown : (l₁.attach s x p (l₁.childrenAt p).length).order s =
      l₁.orderTo s (p + 1) ++ [x] ++ l₁.orderFrom s (p + 1) := by
    rw [order_of_page fun q hq => getElem?_attach_ne hq, shownAt_attach_last hp hvx, orderTo_succ,
      ← List.append_assoc]
  rw [hshown, hto, hbehind, order_split s l (p + 1), orderFrom_eq s l (p + 1), hfront]
  simp only [List.append_assoc, List.cons_append, List.nil_append]

/-- The items of `rest` are the next ones on page `p + 1`, and there are places for them on page
`p`. -/
structure Filling (s : Props ι) (whole : Prop) (l : Layout ι) (A : Finset ι) (p : ℕ) (rest : List ι)
    (l' : Layout ι) : Prop extends Drawn s whole l A p l' where
  present : p < l'.pages.length
  room : (l'.shownAt s p).length + rest.length ≤ s.itemsPerPage
  waiting : rest <+: l'.shownAt s (p + 1)

omit [DecidableEq ι] in
theorem SoundFrom.filling (hl : l.Sound s A) (hfits : ∀ q, l.Fits s q) (hp : p < l.pages.length) :
    Filling s whole l A p ((l.shownAt s (p + 1)).take
      (min (s.itemsPerPage - (l.shownAt s p).length) (l.shownAt s (p + 1)).length)) l where
  toDrawn := .refl hl hfits
  present := hp
  room := by
    have hle : (l.shownAt s p).length ≤ s.itemsPerPage := hfits p
    rw [List.length_take]
    omega
  waiting := List.take_prefix _ _

theorem Filling.next {n : ℕ} (hremove : RemoveSpec s whole remove n) (hn : 2 ≤ n)
    (hfuel : 2 * (l.pages.length - (p + 1)) + 2 ≤ n) {rest : List ι}
    (h : Filling s whole l A p (x :: rest) l') :
    Ends (whole ∧ s.HasHidden) (removeItemData s remove n l' x >>= fun l =>
      addItemToPage s remove n l x (some p) (-1)) (Filling s whole l A p rest) := by
  obtain ⟨B, hB, hsound⟩ := h.sound
  obtain ⟨more, hmore⟩ := h.waiting
  have hfront : l'.shownAt s (p + 1) = x :: (rest ++ more) := hmore.symm
  obtain ⟨hchild, hvx⟩ : x ∈ l'.childrenAt (p + 1) ∧ s.visible x = true := by
    have hmem : x ∈ l'.shownAt s (p + 1) := hfront ▸ List.mem_cons_self
    exact List.mem_filter.mp hmem
  have hx : l'.items x = some (p + 1) := (hsound.record x (p + 1)).mpr hchild
  have hxB : x ∈ B := (hsound.linked x).mp (by simp [hx])
  have hroom := h.room
  rw [List.length_cons] at hroom
  have hlength := h.length
  refine (hremove l' B x (p + 1) hsound h.fits hx (by omega)).bind fun l₁ h₁ => ?_
  obtain ⟨C, hC, hsound₁⟩ := h₁.sound
  have hxC : x ∉ C := fun hmem => Finset.notMem_erase x B (hC.1 hmem)
  have hsame : ∀ q < p + 1, l₁.pages[q]? = l'.pages[q]? := fun q hq =>
    (h₁.before q hq).trans (getElem?_detach_ne (Nat.ne_of_lt hq))
  have hp₁ : p < l₁.pages.length := by
    have hsome := List.getElem?_eq_getElem h.present
    rw [← hsame p (Nat.lt_succ_self p)] at hsome
    exact (List.getElem?_eq_some_iff.mp hsome).1
  have hshown : l₁.shownAt s p = l'.shownAt s p := by
    rw [shownAt, childrenAt_congr (hsame p (Nat.lt_succ_self p)), shownAt]
  obtain ⟨m, rfl⟩ : ∃ m, n = m + 2 := ⟨n - 2, by omega⟩
  rw [addItemToPage_of_room remove hsound₁ hxC hp₁ (by rw [hshown]; omega) m]
  have hlast := shownAt_attach_last (s := s) (l := l₁) hp₁ hvx
  rw [hshown] at hlast
  refine ⟨⟨⟨insert x C, hB.trans (hC.insert hxB), ?sound⟩, fun q => ?fits, ?length,
    fun q hq => ?before, ?front, ?order⟩, ?present, ?room, ?waiting⟩
  case sound => exact hsound₁.attach (fun q hq _ => hsound₁.cached q hq) hxC hp₁
  case fits =>
    rcases eq_or_ne q p with rfl | hqp
    · rw [Fits, hlast, List.length_append, List.length_singleton]
      omega
    · exact (fits_congr (getElem?_attach_ne hqp)).mpr (h₁.fits q)
  case length =>
    have hlength₁ := h₁.length
    rw [length_detach] at hlength₁
    rw [length_attach]
    omega
  case before => rw [getElem?_attach_ne (by omega), hsame q (by omega), h.before q hq]
  case front =>
    rw [hlast]
    exact h.front.trans (List.prefix_append _ _)
  case order => rw [order_pull hsound.toHolds hx hfront hsame h₁.order hp₁, h.order]
  case present => rwa [length_attach]
  case room =>
    rw [hlast, List.length_append, List.length_singleton]
    omega
  case waiting =>
    -- the rest comes first on page `p + 1` once the item has left it
    have hrest : rest <+: l₁.shownAt s (p + 1) := by
      refine List.IsPrefix.trans ?_ h₁.front
      rw [shownAt_detach hsound.toHolds hx, hfront, List.erase_cons_head]
      exact List.prefix_append rest more
    rwa [shownAt, childrenAt_congr (getElem?_attach_ne (Nat.succ_ne_self p))]

theorem fillSpec_succ {n : ℕ} (hremove : RemoveSpec s whole remove n) :
    FillSpec s whole remove (n + 1) := by
  intro l A p hl hfits hfuel
  rw [fillItemVacancies]
  split
  · exact Drawn.refl hl hfits
  · next hp =>
    rw [hl.visibleChildren_eq (Nat.zero_le p) (by omega),
      hl.visibleChildren_eq (Nat.zero_le (p + 1)) (by omega)]
    show Ends _ (if (l.shownAt s p).length = s.itemsPerPage then _ else _) _
    split
    · exact Drawn.refl hl hfits
    · have hloop := Ends.foldlM (h := whole ∧ s.HasHidden) (hl.filling hfits (p := p) (by omega))
        (f := fun l x => do
          let l ← removeItemData s remove n l x
          addItemToPage s remove n l x (some p) (-1))
        fun x rest l' h => h.next hremove (by omega) (by omega)
      exact hloop.mono fun l' h => h.toDrawn

/-- **Vacant places are filled.** Induction on the fuel, each method from the other. -/
theorem vacancies_spec (hremove : Removes s whole remove) (n : ℕ) :
    FillSpec s whole remove n ∧ RemoveSpec s whole remove n := by
  induction n with
  | zero =>
    refine ⟨fun l A p hl hfits hfuel => ?_, fun l A x p hl hfits hx hfuel => ?_⟩ <;> omega
  | succ n ih => exact ⟨fillSpec_succ ih.2, removeSpec_succ hremove ih.1⟩

end Vacancies

end Layout

end IconGrid
