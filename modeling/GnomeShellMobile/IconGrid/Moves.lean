import GnomeShellMobile.IconGrid.Sound

/-!
# IconGrid — surplus items

What the four methods that call each other do in one call (more fuel than they need does not
matter, `prolonged_succ`), and what `_relocateSurplusItems` and
`_addItemToPage` do to a sound layout: surplus goes from page to page, and each call leaves a
visible item behind (`surplus_spec`).
-/

namespace IconGrid

open Attempts

variable {ι : Type} [DecidableEq ι]

namespace Layout

section Follows

/-! ## The stricter removal of pages -/

theorem removeEmptyPage_follows (l : Layout ι) (p : ℕ) :
    Follows (removeEmptyPage l p) (removePage l p) := by
  unfold removeEmptyPage
  split
  · rename_i hnone
    right
    simp [removePage, hnone]
  · split
    · exact .refl _
    · exact .inl rfl

/-- The four methods follow what they do when the removal of a page is not restricted. Induction on
the fuel, each method from the ones it calls. -/
theorem follows (s : Props ι) (n : ℕ) : (∀ l p, Follows (fillItemVacancies s removeEmptyPage n l p)
      (fillItemVacancies s removePage n l p)) ∧
    (∀ l x, Follows (removeItemData s removeEmptyPage n l x) (removeItemData s removePage n l x)) ∧
    (∀ l p, Follows (relocateSurplusItems s removeEmptyPage n l p)
      (relocateSurplusItems s removePage n l p)) ∧
    ∀ l x p i, Follows (addItemToPage s removeEmptyPage n l x p i)
      (addItemToPage s removePage n l x p i) := by
  induction n with
  | zero =>
    simp only [fillItemVacancies, removeItemData, relocateSurplusItems, addItemToPage]
    exact ⟨fun _ _ => .refl _, fun _ _ => .refl _, fun _ _ => .refl _, fun _ _ _ _ => .refl _⟩
  | succ n ih =>
    obtain ⟨hfill, hremove, hrelocate, hadd⟩ := ih
    refine ⟨fun l p => ?_, fun l x => ?_, fun l p => ?_, fun l x p i => ?_⟩
    · rw [fillItemVacancies, fillItemVacancies]
      refine .ite (.refl _) (.bind (.refl _) fun vs => .ite (.refl _) (.bind (.refl _) fun next => ?_))
      exact .foldlM (fun l y => .bind (hremove l y) fun l => hadd l y _ _) _ _
    · rw [removeItemData, removeItemData]
      split
      · exact .refl _
      · split
        · exact .refl _
        · refine .bind (.refl _) fun l => .bind (.refl _) fun l => .bind (.refl _) fun vs => ?_
          refine Follows.bind ?_ fun l => .ite (.refl _) (hfill _ _)
          exact .ite (removeEmptyPage_follows _ _) (.refl _)
    · rw [relocateSurplusItems, relocateSurplusItems]
      refine .bind (.refl _) fun vs => .ite (.refl _) ?_
      exact .foldlM (fun l y => .bind (hremove l y) fun l => hadd l y _ _) _ _
    · rw [addItemToPage, addItemToPage]
      exact .bind (.refl _) fun l => hrelocate _ _

end Follows

/-! ## More fuel -/

/-- With more fuel the four methods return what they return. Induction on the fuel, each method from
the ones it calls. -/
theorem prolonged_succ (s : Props ι) (remove : PageRemoval ι) (n : ℕ) :
    (∀ l p, Prolonged (fillItemVacancies s remove n l p) (fillItemVacancies s remove (n + 1) l p)) ∧
    (∀ l x, Prolonged (removeItemData s remove n l x) (removeItemData s remove (n + 1) l x)) ∧
    (∀ l p, Prolonged (relocateSurplusItems s remove n l p)
      (relocateSurplusItems s remove (n + 1) l p)) ∧
    ∀ l x p i, Prolonged (addItemToPage s remove n l x p i) (addItemToPage s remove (n + 1) l x p i) := by
  induction n with
  | zero =>
    simp only [fillItemVacancies, removeItemData, relocateSurplusItems, addItemToPage]
    exact ⟨fun _ _ => nofun, fun _ _ => nofun, fun _ _ => nofun, fun _ _ _ _ => nofun⟩
  | succ n ih =>
    obtain ⟨hfill, hremove, hrelocate, hadd⟩ := ih
    refine ⟨fun l p => ?_, fun l x => ?_, fun l p => ?_, fun l x p i => ?_⟩
    · rw [fillItemVacancies, fillItemVacancies]
      refine .ite (.refl _) (.bind (.refl _) fun vs => .ite (.refl _) (.bind (.refl _) fun next => ?_))
      exact .foldlM (fun l y => .bind (hremove l y) fun l => hadd l y _ _) _ _
    · rw [removeItemData, removeItemData]
      split
      · exact .refl _
      · split
        · exact .refl _
        · refine .bind (.refl _) fun l => .bind (.refl _) fun l => .bind (.refl _) fun vs => ?_
          exact .bind (.refl _) fun l => .ite (.refl _) (hfill _ _)
    · rw [relocateSurplusItems, relocateSurplusItems]
      refine .bind (.refl _) fun vs => .ite (.refl _) ?_
      exact .foldlM (fun l y => .bind (hremove l y) fun l => hadd l y _ _) _ _
    · rw [addItemToPage, addItemToPage]
      exact .bind (.refl _) fun l => hrelocate _ _

theorem removeItemData_prolonged (s : Props ι) (remove : PageRemoval ι) (l : Layout ι) (x : ι) {n m : ℕ}
    (h : n ≤ m) : Prolonged (removeItemData s remove n l x) (removeItemData s remove m l x) := by
  induction m, h using Nat.le_induction with
  | base => exact .refl _
  | succ m _ ih => exact ih.trans ((prolonged_succ s remove m).2.1 l x)

/-! ## One call of each method -/

section Calls

variable {s : Props ι} {k : ℕ} {l : Layout ι} {A : Finset ι} {x : ι} {p : ℕ} {remove : PageRemoval ι}

section

variable (hl : l.SoundFrom s k A)
include hl

theorem relocateSurplusItems_of_fits (hk : k ≤ p)
    (hp : p < l.pages.length) (hfits : l.Fits s p) (n : ℕ) :
    relocateSurplusItems s remove (n + 1) l p = .ok l := by
  have hle : (l.shownAt s p).length ≤ s.itemsPerPage := hfits
  rw [relocateSurplusItems, hl.visibleChildren_eq hk hp]
  simp [Bind.bind, Except.bind, hle]

theorem fillItemVacancies_of_full (hk : k ≤ p)
    (hfull : s.itemsPerPage ≤ (l.shownAt s p).length) (n : ℕ) :
    fillItemVacancies s remove (n + 1) l p = .ok l := by
  rw [fillItemVacancies]
  split
  · rfl
  · rename_i hp
    rw [hl.visibleChildren_eq (p := p) hk (by omega),
      hl.visibleChildren_eq (p := p + 1) (by omega) (by omega)]
    simp only [Bind.bind, Except.bind]
    split
    · rfl
    · rw [show s.itemsPerPage - (l.shownAt s p).length = 0 by omega, Nat.zero_min]
      rfl

theorem removeItemData_eq (hk : k ≤ p) (hx : l.items x = some p) (n : ℕ) :
    removeItemData s remove (n + 1) l x = (do
      let l' ← (l.detach s x p).removeWithoutIcons remove p ((l.detach s x p).shownAt s p)
      if s.allowIncompletePages then .ok l' else fillItemVacancies s remove n l' p) := by
  have hp := hl.lt_length hx
  have hmem := (hl.record x p).mp hx
  have hpage : l.pages[p]? = some l.pages[p] := List.getElem?_eq_getElem hp
  have hchildren := childrenAt_of_getElem? hpage
  have hdetach := (hl.detach hx).visibleChildren_eq hk (by simpa using hp)
  have hunlink : l.unlinkItem x = .ok (l.clearItem x) := by
    simp only [unlinkItem, hx]
    rfl
  have hupdate : ((l.clearItem x).setChildren p l.pages[p]
      (spliceOut l.pages[p].children x)).updateVisibleChildrenForPage s p =
      .ok (l.detach s x p) := by
    rw [← hchildren, spliceOut, if_pos hmem]
    simp only [updateVisibleChildrenForPage, setChildren, List.set_set]
    rw [List.getElem?_set_self (by simpa [clearItem] using hp)]
    rfl
  rw [removeItemData]
  simp only [hx, hpage, hunlink, Bind.bind, Except.bind]
  rw [hupdate]
  simp only [hdetach]

theorem removeItemData_of_surplus (hk : k ≤ p)
    (hx : l.items x = some p) (hsurplus : s.itemsPerPage < (l.shownAt s p).length) (n : ℕ) :
    removeItemData s remove (n + 2) l x = .ok (l.detach s x p) := by
  have hlength := length_shownAt_detach (s := s) hl.toHolds hx
  have hpos := itemsPerPage_pos s
  have hfull : s.itemsPerPage ≤ ((l.detach s x p).shownAt s p).length := by
    split at hlength <;> omega
  rw [removeItemData_eq hl hk hx, removeWithoutIcons, if_neg (by omega)]
  show (if s.allowIncompletePages then _ else _) = _
  split
  · rfl
  · exact fillItemVacancies_of_full (hl.detach hx) hk hfull n

end

def indexAt (l : Layout ι) (p : ℕ) (index : ℤ) : ℤ :=
  if index = -1 then (l.childrenAt p).length else index

theorem placeItem_eq (hp : p < l.pages.length) (index : ℤ) :
    l.placeItem s x p index = .ok (l.attach s x p (l.indexAt p index)) := by
  have hpage : l.pages[p]? = some l.pages[p] := List.getElem?_eq_getElem hp
  have hset : ∀ xs, ((l.setItem x p).setChildren p l.pages[p] xs).updateVisibleChildrenForPage s p =
      .ok ((l.withPage s p xs).setItem x p) := by
    intro xs
    simp only [updateVisibleChildrenForPage, setChildren, List.set_set]
    rw [List.getElem?_set_self (by simpa [setItem] using hp)]
    rfl
  unfold placeItem attach indexAt
  rw [hpage, childrenAt_of_getElem? hpage]
  exact hset _

theorem addItemToPage_eq (s : Props ι) (remove : PageRemoval ι) (x : ι)
    (hp : p ≤ l.pages.length) (index : ℤ) (n : ℕ) :
    addItemToPage s remove (n + 1) l x (some p) index =
      relocateSurplusItems s remove n
        ((l.openPages (some p)).attach s x p ((l.openPages (some p)).indexAt p index)) p := by
  rw [addItemToPage]
  simp only [Option.getD_some]
  rw [placeItem_eq (length_openPages hp).2]
  rfl

theorem addItemToPage_none (hp : p = l.pages.length - 1) (index : ℤ) (n : ℕ) :
    addItemToPage s remove (n + 1) l x none index =
      addItemToPage s remove (n + 1) l x (some p) index := by
  have hlast : (l.openPages (some p)).pages.length - 1 = p := by
    by_cases h0 : l.pages.length = 0
    · have hp0 : p = l.pages.length := by omega
      subst hp0
      rw [openPages_length]
      simp [appendPage]
    · rw [openPages_of_lt (by omega)]
      exact hp.symm
  rw [addItemToPage, addItemToPage, openPages_none hp]
  simp only [Option.getD_none, Option.getD_some, hlast]

end Calls

/-! ## Surplus items -/

/-- The number of visible items of `A` from page `p` on. -/
def weight (s : Props ι) (l : Layout ι) (A : Finset ι) (p : ℕ) : ℕ :=
  (A.filter fun x => s.visible x = true ∧ ∃ q ∈ l.items x, p ≤ q).card

/-- What moving surplus items from page `p` on leaves as it was. -/
structure Pushed (s : Props ι) (k : ℕ) (l : Layout ι) (A : Finset ι) (p : ℕ) (l' : Layout ι) :
    Prop where
  sound : l'.SoundFrom s k A
  length : l.pages.length ≤ l'.pages.length
  before : ∀ q < p, l'.pages[q]? = l.pages[q]?
  fits : ∀ q, l.Fits s q → l'.Fits s q

section Surplus

variable {s : Props ι} {k : ℕ} {l l' : Layout ι} {A : Finset ι} {x : ι} {p : ℕ} {remove : PageRemoval ι}

omit [DecidableEq ι] in
theorem weight_congr (hl : l.Holds A) (hl' : l'.Holds A)
    (hbefore : ∀ q < p, l'.pages[q]? = l.pages[q]?) : l'.weight s A p = l.weight s A p := by
  unfold weight
  congr 1
  refine Finset.filter_congr fun x hx => and_congr_right fun _ => ?_
  obtain ⟨q, hq⟩ := Option.ne_none_iff_exists'.mp ((hl.linked x).mpr hx)
  obtain ⟨q', hq'⟩ := Option.ne_none_iff_exists'.mp ((hl'.linked x).mpr hx)
  simp only [hq, hq', Option.mem_def, Option.some.injEq, exists_eq_left']
  by_cases hlt : q < p
  · have h := (hl.items_eq_iff hl' (hbefore q hlt) x).mpr hq
    rw [hq'] at h
    cases h
    exact Iff.rfl
  · by_cases hlt' : q' < p
    · have h := (hl.items_eq_iff hl' (hbefore q' hlt') x).mp hq'
      rw [hq] at h
      cases h
      exact Iff.rfl
    · omega

theorem weight_attach (hitems : l'.items = l.items) {i : ℤ} :
    (l'.attach s x p i).weight s (insert x A) p ≤ l.weight s A p + 1 := by
  unfold weight
  refine le_trans (Finset.card_le_card ?_) (Finset.card_insert_le x _)
  intro y hy
  rw [Finset.mem_filter, Finset.mem_insert] at hy
  rw [Finset.mem_insert, Finset.mem_filter]
  obtain ⟨hmem, hvisible, q, hq, hle⟩ := hy
  by_cases hyx : y = x
  · exact .inl hyx
  · rw [Option.mem_def, items_attach, if_neg hyx, hitems] at hq
    exact .inr ⟨hmem.resolve_left hyx, hvisible, q, hq, hle⟩

theorem weight_detach {y : ι} (hx : l.items x = some p) (hvx : s.visible x = true)
    (hy : l.items y = some p) (hvy : s.visible y = true) (hyx : y ≠ x) (hxA : x ∈ A) (hyA : y ∈ A) :
    (l.detach s x p).weight s (A.erase x) (p + 1) + 2 ≤ l.weight s A p := by
  unfold weight
  have hsub : insert x (insert y ((A.erase x).filter fun z => s.visible z = true ∧
      ∃ q ∈ (l.detach s x p).items z, p + 1 ≤ q)) ⊆
      A.filter fun z => s.visible z = true ∧ ∃ q ∈ l.items z, p ≤ q := by
    intro z hz
    rw [Finset.mem_filter]
    rw [Finset.mem_insert, Finset.mem_insert, Finset.mem_filter, Finset.mem_erase] at hz
    rcases hz with rfl | rfl | ⟨⟨hzx, hzA⟩, hvz, q, hq, hle⟩
    · exact ⟨hxA, hvx, p, hx, le_rfl⟩
    · exact ⟨hyA, hvy, p, hy, le_rfl⟩
    · rw [Option.mem_def, items_detach, if_neg hzx] at hq
      exact ⟨hzA, hvz, q, hq, by omega⟩
  have hy' : y ∉ (A.erase x).filter fun z => s.visible z = true ∧
      ∃ q ∈ (l.detach s x p).items z, p + 1 ≤ q := by
    rw [Finset.mem_filter]
    rintro ⟨-, -, q, hq, hle⟩
    rw [Option.mem_def, items_detach, if_neg hyx, hy] at hq
    cases hq
    omega
  have hx' : x ∉ insert y ((A.erase x).filter fun z => s.visible z = true ∧
      ∃ q ∈ (l.detach s x p).items z, p + 1 ≤ q) := by
    rw [Finset.mem_insert, Finset.mem_filter]
    rintro (rfl | ⟨hmem, -⟩)
    · exact hyx rfl
    · exact (Finset.mem_erase.mp hmem).1 rfl
  have hcard := Finset.card_le_card hsub
  rwa [Finset.card_insert_of_notMem hx', Finset.card_insert_of_notMem hy'] at hcard

/-- The items of `rest` are the surplus that is still on page `p`. -/
structure Overflowing (s : Props ι) (k : ℕ) (l : Layout ι) (A : Finset ι) (p : ℕ)
    (rest : List ι) (l' : Layout ι) : Prop extends Pushed s k l A p l' where
  shown : l'.shownAt s p = (l.shownAt s p).take s.itemsPerPage ++ rest.reverse
  waiting : ∀ y ∈ rest, l'.items y = some p ∧ s.visible y = true
  distinct : rest.Nodup

omit [DecidableEq ι] in
theorem SoundFrom.overflowing (hl : l.SoundFrom s k A)
    (hsurplus : ¬ (l.shownAt s p).length ≤ s.itemsPerPage) : Overflowing s k l A p
      ((l.shownAt s p).reverse.take ((l.shownAt s p).length - s.itemsPerPage)) l where
  sound := hl
  length := le_rfl
  before _ _ := rfl
  fits _ h := h
  shown := by
    rw [List.take_reverse, List.reverse_reverse,
      show (l.shownAt s p).length - ((l.shownAt s p).length - s.itemsPerPage) = s.itemsPerPage by
        omega]
    exact (List.take_append_drop _ _).symm
  waiting y hy := by
    have hmem := List.mem_filter.mp (List.mem_reverse.mp (List.mem_of_mem_take hy))
    exact ⟨(hl.record y p).mpr hmem.1, hmem.2⟩
  distinct := (List.nodup_reverse.mpr ((hl.nodup p).filter _)).sublist (List.take_sublist _ _)

theorem SoundFrom.exists_stays (hl : l.SoundFrom s k A) (hx : l.items x = some p)
    (hsurplus : s.itemsPerPage < (l.shownAt s p).length) :
    ∃ y, l.items y = some p ∧ s.visible y = true ∧ y ≠ x := by
  have hpos := itemsPerPage_pos s
  have hlength := length_shownAt_detach (s := s) hl.toHolds hx
  obtain ⟨y, hy⟩ : ∃ y, y ∈ (l.detach s x p).shownAt s p := by
    refine List.exists_mem_of_length_pos ?_
    split at hlength <;> omega
  have hmem := List.mem_filter.mp hy
  rw [← (hl.detach hx).record, items_detach] at hmem
  obtain ⟨hitem, hvisible⟩ := hmem
  split at hitem
  · cases hitem
  · rename_i hne
    exact ⟨y, hitem, hvisible, hne⟩

variable (s)

/-- The specification of `_relocateSurplusItems` with fuel `n`. -/
def RelocateSpec (remove : PageRemoval ι) (n : ℕ) : Prop :=
  ∀ k l A p, SoundFrom s k l A → k ≤ p → p < l.pages.length → 2 * l.weight s A p + 1 ≤ n →
    Ends s.HasHidden (relocateSurplusItems s remove n l p) fun l' =>
      Pushed s k l A p l' ∧ l'.shownAt s p = (l.shownAt s p).take s.itemsPerPage

/-- The layout in which `_addItemToPage` has put the item on page `p`. -/
def placed (l : Layout ι) (x : ι) (p : ℕ) (index : ℤ) : Layout ι :=
  (l.openPages (some p)).attach s x p ((l.openPages (some p)).indexAt p index)

/-- The specification of `_addItemToPage` with fuel `n`. -/
def AddSpec (remove : PageRemoval ι) (n : ℕ) : Prop :=
  ∀ k l A x p index, SoundFrom s k l A → k ≤ p → x ∉ A → p ≤ l.pages.length →
    2 * l.weight s A p + 4 ≤ n →
    Ends s.HasHidden (addItemToPage s remove n l x (some p) index) fun l' =>
      Pushed s k l (insert x A) p l' ∧
      l'.shownAt s p = ((l.placed s x p index).shownAt s p).take s.itemsPerPage

variable {s}

theorem erase_last {xs : List ι} {x : ι} (h : (xs ++ [x]).Nodup) : (xs ++ [x]).erase x = xs := by
  have hx : x ∉ xs := fun hmem => by
    have hdisjoint := (List.nodup_append.mp h).2.2
    exact hdisjoint x hmem x (List.mem_singleton_self x) rfl
  rw [List.erase_append_right _ hx]
  simp

omit [DecidableEq ι] in
theorem Overflowing.surplus {rest : List ι} (hsurplus : ¬ (l.shownAt s p).length ≤ s.itemsPerPage)
    (h : Overflowing s k l A p (x :: rest) l') : s.itemsPerPage < (l'.shownAt s p).length := by
  rw [h.shown, List.length_append, List.length_take, List.length_reverse, List.length_cons]
  omega

theorem Overflowing.weight_detach {rest : List ι} (hl : l.SoundFrom s k A)
    (hsurplus : ¬ (l.shownAt s p).length ≤ s.itemsPerPage)
    (h : Overflowing s k l A p (x :: rest) l') :
    (l'.detach s x p).weight s (A.erase x) (p + 1) + 2 ≤ l.weight s A p := by
  obtain ⟨hx, hvx⟩ := h.waiting x List.mem_cons_self
  obtain ⟨y, hy, hvy, hyx⟩ := h.sound.exists_stays hx (h.surplus hsurplus)
  have hxA : x ∈ A := (h.sound.linked x).mp (by simp [hx])
  have hyA : y ∈ A := (h.sound.linked y).mp (by simp [hy])
  rw [← weight_congr hl.toHolds h.sound.toHolds h.before]
  exact Layout.weight_detach hx hvx hy hvy hyx hxA hyA

theorem Overflowing.next {n : ℕ} (hadd : AddSpec s remove n) {rest : List ι}
    (hsurplus : ¬ (l.shownAt s p).length ≤ s.itemsPerPage) (hfuel : 2 * l.weight s A p ≤ n)
    (hl : l.SoundFrom s k A) (hk : k ≤ p) (h : Overflowing s k l A p (x :: rest) l') :
    Ends s.HasHidden (removeItemData s remove n l' x >>= fun l =>
      addItemToPage s remove n l x (some (p + 1)) 0) (Overflowing s k l A p rest) := by
  have hshown := h.shown
  have hx := (h.waiting x List.mem_cons_self).1
  have hxA : x ∈ A := (h.sound.linked x).mp (by simp [hx])
  have hweight := h.weight_detach hl hsurplus
  -- two items count on page `p`, so the fuel is not used up
  obtain ⟨m, rfl⟩ : ∃ m, n = m + 2 := ⟨n - 2, by omega⟩
  rw [removeItemData_of_surplus h.sound hk hx (h.surplus hsurplus)]
  have hdetach := h.sound.detach hx
  have hp := h.sound.lt_length hx
  have hspec := hadd k (l'.detach s x p) (A.erase x) x (p + 1) 0 hdetach (by omega) (by simp)
    (by rw [length_detach]; exact hp) (by omega)
  rw [Finset.insert_erase hxA] at hspec
  refine hspec.mono ?_
  rintro l'' ⟨hpushed, -⟩
  have hsame : l''.pages[p]? = (l'.detach s x p).pages[p]? := hpushed.before p (Nat.lt_succ_self p)
  refine ⟨⟨hpushed.sound, ?_, ?_, ?_⟩, ?_, ?_, (List.nodup_cons.mp h.distinct).2⟩
  · have h1 := h.length
    have h2 := hpushed.length
    rw [length_detach] at h2
    omega
  · intro q hq
    rw [hpushed.before q (by omega), getElem?_detach_ne (by omega), h.before q hq]
  · intro q hq
    have hqp : q ≠ p := fun heq => hsurplus (heq ▸ hq)
    exact hpushed.fits q ((h.fits q hq).detach h.sound.toHolds hx)
  · have hnodup : (l'.shownAt s p).Nodup := (h.sound.nodup p).filter _
    rw [shownAt, childrenAt_congr hsame]
    show (l'.detach s x p).shownAt s p = _
    rw [hshown, List.reverse_cons, ← List.append_assoc] at hnodup
    rw [shownAt_detach h.sound.toHolds hx, hshown, List.reverse_cons, ← List.append_assoc,
      erase_last hnodup]
  · intro z hz
    obtain ⟨hitem, hvz⟩ := h.waiting z (List.mem_cons_of_mem x hz)
    have hzx : z ≠ x := fun heq => (List.nodup_cons.mp h.distinct).1 (heq ▸ hz)
    refine ⟨?_, hvz⟩
    rw [hpushed.sound.record, childrenAt_congr hsame, ← hdetach.record, items_detach, if_neg hzx]
    exact hitem

theorem relocateSpec_succ {n : ℕ} (hadd : AddSpec s remove n) : RelocateSpec s remove (n + 1) := by
  intro k l A p hl hk hp hfuel
  rw [relocateSurplusItems, hl.visibleChildren_eq hk hp]
  show Ends s.HasHidden (if (l.shownAt s p).length ≤ s.itemsPerPage then _ else _) _
  split
  · rename_i hfits
    exact ⟨⟨hl, le_rfl, fun _ _ => rfl, fun _ h => h⟩, (List.take_of_length_le hfits).symm⟩
  · rename_i hsurplus
    have hloop := Ends.foldlM (h := s.HasHidden) (hl.overflowing hsurplus) (f := fun l x => do
      let l ← removeItemData s remove n l x
      addItemToPage s remove n l x (some (p + 1)) 0)
      fun x rest l' h => h.next hadd hsurplus (by omega) hl hk
    refine hloop.mono fun l' h => ⟨h.toPushed, ?_⟩
    rw [h.shown, List.reverse_nil, List.append_nil]

theorem addSpec_succ {n : ℕ} (hrelocate : RelocateSpec s remove n) : AddSpec s remove (n + 1) := by
  intro k l A x p index hl hk hx hp hfuel
  rw [addItemToPage_eq s remove x hp index n]
  show Ends s.HasHidden (relocateSurplusItems s remove n (l.placed s x p index) p) _
  obtain ⟨hlength, hlt⟩ := length_openPages hp
  have hsame := fun q (hq : q ≠ p) => getElem?_openPages_ne hp hq
  have hattach : (l.placed s x p index).SoundFrom s k (insert x A) :=
    (hl.toHolds.openPages hp).attach
      (fun q hkq hq => (cached_congr (hsame q hq)).mpr (hl.cached q hkq)) hx hlt
  have hplaced : (l.placed s x p index).pages.length = (l.openPages (some p)).pages.length :=
    length_attach
  have hweight : (l.placed s x p index).weight s (insert x A) p ≤ l.weight s A p + 1 :=
    weight_attach (items_openPages hp)
  refine (hrelocate k _ _ p hattach hk (by omega) (by omega)).mono ?_
  rintro l' ⟨h, hshown⟩
  refine ⟨⟨h.sound, ?_, fun q hq => ?_, fun q hq => ?_⟩, hshown⟩
  · have h1 := h.length
    omega
  · rw [h.before q hq]
    exact (getElem?_attach_ne (by omega)).trans (hsame q (by omega))
  · by_cases hqp : q = p
    · rw [hqp, Fits, hshown, List.length_take]
      exact Nat.min_le_left _ _
    · exact h.fits q ((fits_congr ((getElem?_attach_ne hqp).trans (hsame q hqp))).mpr hq)

/-- **Surplus items find a place.** Induction on the fuel, each method from the other. -/
theorem surplus_spec (s : Props ι) (remove : PageRemoval ι) (n : ℕ) :
    RelocateSpec s remove n ∧ AddSpec s remove n := by
  induction n with
  | zero =>
    refine ⟨fun k l A p hl hk hp hfuel => ?_, fun k l A x p index hl hk hx hp hfuel => ?_⟩ <;>
      omega
  | succ n ih => exact ⟨relocateSpec_succ ih.2, addSpec_succ ih.1⟩

end Surplus

end Layout

end IconGrid
