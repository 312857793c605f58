import GnomeShellMobile.IconGrid.Tidy

/-!
# IconGrid — where a moved item arrives

`moveItem` takes the item out before it looks at the page it was given. If the item was the last
visible one its page is deleted, the later pages move up, and the number names the page behind the
one that was meant, or none. `moveItem_arrives_iff` says exactly when the item arrives where it
should.
-/

namespace IconGrid

open Attempts

variable {ι : Type} [DecidableEq ι]

namespace Layout

section LessItem

variable {s : Props ι} {l : Layout ι} {A : Finset ι} {x y : ι} {p q r : ℕ}

/-- Page `q` is deleted when the item leaves it: it shows no other one. -/
def Deletes (s : Props ι) (l : Layout ι) (x : ι) (q : ℕ) : Prop := others x (l.shownAt s q) = []
deriving Decidable

def lessItem (s : Props ι) (l : Layout ι) (x : ι) (q : ℕ) : Layout ι :=
  if l.Deletes s x q then ((l.detach s x q).emptied s q).dropPage q else l.detach s x q

theorem removeItemData_of_incomplete (hl : l.Sound s A) (hx : l.items x = some q)
    (hincomplete : s.allowIncompletePages = true) (n : ℕ) :
    removeItemData s removePage (n + 1) l x = .ok (l.lessItem s x q) := by
  have hnodup : (l.shownAt s q).Nodup := (hl.nodup q).filter _
  have hshown : (l.detach s x q).shownAt s q = others x (l.shownAt s q) := by
    rw [shownAt_detach hl.toHolds hx, others_erase hnodup]
  have hq : q < (l.detach s x q).pages.length := by
    rw [length_detach]
    exact hl.lt_length hx
  rw [removeItemData_eq hl (Nat.zero_le q) hx, removeWithoutIcons, hshown, lessItem]
  by_cases hdeletes : l.Deletes s x q
  · rw [if_pos (List.length_eq_zero_iff.mpr hdeletes), if_pos hdeletes,
      removePage_eq (hl.detach hx).toHolds hq]
    show (if s.allowIncompletePages then _ else _) = _
    rw [if_pos hincomplete]
  · rw [if_neg (mt List.length_eq_zero_iff.mp hdeletes), if_neg hdeletes]
    show (if s.allowIncompletePages then _ else _) = _
    rw [if_pos hincomplete]

section

variable (hl : l.Holds A)
include hl

theorem length_lessItem (hx : l.items x = some q) :
    (l.lessItem s x q).pages.length =
      if l.Deletes s x q then l.pages.length - 1 else l.pages.length := by
  have hq := hl.lt_length hx
  rw [lessItem]
  split
  · have hlength := length_dropPage (l := (l.detach s x q).emptied s q) (p := q)
    have hsame : ((l.detach s x q).emptied s q).pages.length = l.pages.length := by
      rw [emptied, length_withPage, length_detach]
    rw [hsame] at hlength
    have := hlength hq
    omega
  · exact length_detach

theorem childrenAt_lessItem_of_not (hx : l.items x = some q)
    (hnot : ¬ l.Deletes s x q) (r : ℕ) :
    (l.lessItem s x q).childrenAt r = others x (l.childrenAt r) := by
  rw [lessItem, if_neg hnot, childrenAt_detach (hl.lt_length hx)]
  split
  · next hr => rw [hr, others_erase (hl.nodup q)]
  · next hr =>
    refine (others_of_notMem fun hmem => hr ?_).symm
    rw [← hl.record, hx] at hmem
    exact (Option.some.inj hmem).symm

theorem childrenAt_lessItem_of_deletes (hx : l.items x = some q)
    (hdeletes : l.Deletes s x q) (r : ℕ) :
    (l.lessItem s x q).childrenAt r = if r < q then l.childrenAt r else l.childrenAt (r + 1) := by
  have hsame : ∀ r ≠ q, ((l.detach s x q).emptied s q).childrenAt r = l.childrenAt r := by
    intro r hr
    have hpage : ((l.detach s x q).emptied s q).pages[r]? = (l.detach s x q).pages[r]? :=
      getElem?_withPage_ne s _ [] hr
    rw [childrenAt_congr hpage, childrenAt_detach (hl.lt_length hx), if_neg hr]
  rw [lessItem, if_pos hdeletes, childrenAt_dropPage]
  split
  · next hr => exact hsame r (Nat.ne_of_lt hr)
  · next hr => exact hsame (r + 1) (by omega)

theorem items_lessItem_of_deletes (hx : l.items x = some q)
    (hdeletes : l.Deletes s x q) (hy : y ∈ l.childrenAt q) : (l.lessItem s x q).items y = none := by
  have hemptied : ((l.detach s x q).emptied s q).items y = none := by
    show (if y ∈ (l.detach s x q).childrenAt q then none else (l.detach s x q).items y) = none
    rw [childrenAt_detach (hl.lt_length hx), if_pos rfl, items_detach]
    rcases eq_or_ne y x with rfl | hyx
    · rw [if_pos rfl, ite_self]
    · rw [if_pos ((List.mem_erase_of_ne hyx).mpr hy)]
  rw [lessItem, if_pos hdeletes]
  show (((l.detach s x q).emptied s q).items y).map _ = none
  rw [hemptied]
  rfl

end

end LessItem

/-! ## The page that is chosen -/

section Choose

variable {s : Props ι} {l : Layout ι} {A : Finset ι} {x : ι} {p : ℕ}

omit [DecidableEq ι] in
theorem findBestPageToAppend_of_room (hl : l.Sound s A) (hp : p < l.pages.length)
    (hroom : (l.shownAt s p).length < s.itemsPerPage) : l.findBestPageToAppend s p = some p := by
  have hpage : l.pages[p]? = some l.pages[p] := List.getElem?_eq_getElem hp
  have hvisible := hl.cached p (Nat.zero_le p) _ hpage
  rw [shownAt, childrenAt_of_getElem? hpage] at hroom
  rw [findBestPageToAppend, List.drop_eq_getElem_cons hp, findRoom, hvisible]
  show (if (l.pages[p].children.filter s.visible).length < s.itemsPerPage then _ else _) = _
  rw [if_pos hroom]

omit [DecidableEq ι] in
theorem findBestPageToAppend_of_le (hp : l.pages.length ≤ p) :
    l.findBestPageToAppend s p = some l.pages.length := by
  rw [findBestPageToAppend, List.drop_eq_nil_of_le hp, findRoom]

omit [DecidableEq ι] in
theorem choosePage_of_room (hl : l.Sound s A) {newPosition : ℤ} (hp : p ≤ l.pages.length)
    (hroom : (l.shownAt s p).length < s.itemsPerPage) :
    l.choosePage s (some p) newPosition = some (some p) := by
  show (if newPosition = -1 then (l.findBestPageToAppend s p).map some else some (some p)) = _
  split
  · rcases Nat.lt_or_eq_of_le hp with hlt | rfl
    · rw [findBestPageToAppend_of_room hl hlt hroom]
      rfl
    · rw [findBestPageToAppend_of_le le_rfl]
      rfl
  · rfl

omit [DecidableEq ι] in
theorem choosePage_ge (hl : l.Sound s A) (hp : p ≤ l.pages.length) (newPosition : ℤ) :
    ∃ r, l.choosePage s (some p) newPosition = some (some r) ∧ p ≤ r ∧ r ≤ l.pages.length := by
  show ∃ r, (if newPosition = -1 then _ else _) = _ ∧ _
  split
  · obtain ⟨r, hr, hle⟩ := hl.findBestPageToAppend p
    refine ⟨r, by rw [hr]; rfl, ?_, hle⟩
    rcases findRoom_ge _ _ _ _ hr with hge | heq
    · exact hge
    · rw [heq]
      exact hp
  · exact ⟨p, rfl, le_rfl, hp⟩

end Choose

end Layout

namespace State

def HasItem (t : State ι) (x : ι) : Prop :=
  x ∈ t.children ∧ ∃ r, t.layout.items x = some r ∧ x ∈ t.layout.childrenAt r

variable (s : State ι)

def Full (p : ℕ) : Prop :=
  s.props.itemsPerPage ≤ (s.layout.shownAt s.props p).length

variable (x : ι)

/-- The number of page `p` after the item has left page `q`. -/
def indexAfter (q p : ℕ) : ℕ :=
  if q < p ∧ s.layout.Deletes s.props x q then p - 1 else p

/-- The item of page `q` is on the page that was page `p` of `s`, with the children that page has
without it; or on a new last page if `p` was the number of pages. -/
def OnPage (q p : ℕ) (t : State ι) : Prop :=
  if p < s.layout.pages.length then
    t.layout.items x = some (s.indexAfter x q p) ∧
      Layout.others x (t.layout.childrenAt (s.indexAfter x q p)) =
        Layout.others x (s.layout.childrenAt p)
  else
    t.layout.items x = some (t.layout.pages.length - 1) ∧
      Layout.others x (t.layout.childrenAt (t.layout.pages.length - 1)) = []

/-- `moveItem` returns, and the item of page `q` is in the grid; where pages may be incomplete it is
on the page that was meant, unless that was full. -/
def Arrives (q p : ℕ) (newPosition : ℤ) : Prop :=
  ∃ t, s.moveItem Layout.removePage x (some p) newPosition = .ok t ∧ t.HasItem x ∧
    (s.props.allowIncompletePages = true → ¬ s.Full p → s.OnPage x q p t)

/-- Where pages may be incomplete: the page of the item stays, or is behind the one that is meant, or
that one is full; or a new page is meant, which the item is appended to or is the only one; or it is
the page of the item itself, with nothing else on it or behind it. -/
def ArrivesWhen (q p : ℕ) (newPosition : ℤ) : Prop :=
  if s.props.allowIncompletePages = true then
    ¬ s.layout.Deletes s.props x q ∨ p < q ∨ s.Full p ∨
      (p = s.layout.pages.length ∧ (newPosition = -1 ∨ s.layout.pages.length = 1)) ∨
      (p = q ∧ Layout.others x (s.layout.childrenAt q) = [] ∧ s.layout.childrenAt (q + 1) = [])
  else newPosition = -1 ∨ p ≤ s.pagesLeft x ∨ (s.pagesLeft x = 0 ∧ p = 1)

instance (p : ℕ) : Decidable (s.Full p) := Nat.decLe _ _

instance (q p : ℕ) (newPosition : ℤ) :
    Decidable (s.ArrivesWhen x q p newPosition) := by
  unfold ArrivesWhen
  infer_instance

section Moved

variable {s t u : State ι} {A : Finset ι} {x : ι} {p q : ℕ} {newPosition : ℤ}

/-! ## Whether it returns -/

theorem moveItem_eq_putBack (hx : s.layout.items x ≠ none)
    (hout : s.takeOut Layout.removePage x = .ok u) (page : Option ℕ) (newPosition : ℤ) :
    s.moveItem Layout.removePage x page newPosition =
      u.putBack Layout.removePage x page newPosition := by
  rw [moveItem, if_neg hx, hout]
  rfl

theorem Tidy.hasItem (ht : t.Tidy) (hx : t.layout.items x ≠ none) : t.HasItem x := by
  obtain ⟨A, hA, hsound⟩ := ht.sound
  obtain ⟨r, hr⟩ := Option.ne_none_iff_exists'.mp hx
  exact ⟨List.mem_toFinset.mp (hA ((hsound.linked x).mp hx)), r, hr, (hsound.record x r).mp hr⟩

theorem Without.hasItem_second (hu : s.Without A x u) (hA : A ⊆ s.children.toFinset) (hx : x ∈ A)
    (hempty : u.layout.pages.length = 0) :
    (u.setLayout (u.layout.second u.props x newPosition)).HasItem x := by
  obtain ⟨B, hB, hsound⟩ := hu.sound
  have hxB : x ∉ B := fun hmem => Finset.notMem_erase x A (hB hmem)
  have hitem : (u.layout.second u.props x newPosition).items x = some 1 := by
    rw [Layout.second, Layout.items_attach, if_pos rfl]
  refine ⟨?_, 1, hitem, ((hsound.second hempty hxB newPosition).record x 1).mp hitem⟩
  have hmem := List.mem_toFinset.mp (hA hx)
  rwa [children, ← hu.container] at hmem

/-- **It returns** if and only if the page is there without the item, or is appended to; or if it is
page 1 and no page is left. -/
theorem moveItem_returns_iff (h : s.Tidy) (hx : s.layout.items x ≠ none) :
    (∃ t, s.moveItem Layout.removePage x (some p) newPosition = .ok t) ↔
      newPosition = -1 ∨ p ≤ s.pagesLeft x ∨ (s.pagesLeft x = 0 ∧ p = 1) := by
  obtain ⟨A, hA, hsound⟩ := h.sound
  obtain ⟨u, hout, hu⟩ := (takeOut_without hsound h.fits hx).returns id
  rw [pagesLeft_eq h hx hout, moveItem_eq_putBack hx hout]
  by_cases hrange : newPosition = -1 ∨ p ≤ u.layout.pages.length
  · obtain ⟨t, ht, -⟩ := (hu.putBack_some h hA ((hsound.linked x).mp hx) hrange).returns id
    refine iff_of_true ⟨t, ht⟩ ?_
    rcases hrange with hposition | hp
    · exact .inl hposition
    · exact .inr (.inl hp)
  · obtain ⟨hposition, hp⟩ := not_or.mp hrange
    rcases hu.putBack_beyond hposition (Nat.lt_of_not_le hp) with
      ⟨⟨t, ht⟩, hcorner⟩ | ⟨hcorner, ht⟩
    · rw [ht]
      refine iff_of_false nofun ?_
      rintro (h1 | h1 | h1)
      · exact hposition h1
      · exact hp h1
      · exact hcorner h1
    · exact iff_of_true ⟨_, ht⟩ (.inr (.inr hcorner))

theorem moveItem_hasItem (h : s.Tidy) (hx : s.layout.items x ≠ none)
    (ht : s.moveItem Layout.removePage x (some p) newPosition = .ok t) : t.HasItem x := by
  obtain ⟨A, hA, hsound⟩ := h.sound
  have hxA := (hsound.linked x).mp hx
  obtain ⟨u, hout, hu⟩ := (takeOut_without hsound h.fits hx).returns id
  rw [moveItem_eq_putBack hx hout] at ht
  by_cases hrange : newPosition = -1 ∨ p ≤ u.layout.pages.length
  · have hput := hu.putBack_some h hA hxA hrange
    rw [ht] at hput
    exact hput.1.1.hasItem hput.1.2
  · obtain ⟨hposition, hp⟩ := not_or.mp hrange
    rcases hu.putBack_beyond hposition (Nat.lt_of_not_le hp) with
      ⟨⟨t', ht'⟩, -⟩ | ⟨hcorner, ht'⟩
    · rw [ht'] at ht
      cases ht
    · rw [ht'] at ht
      cases ht
      exact hu.hasItem_second hA hxA hcorner.1

/-! ## Where it arrives -/

section

variable (h : s.Tidy)
include h

theorem takeOut_of_incomplete (hx : s.layout.items x = some q)
    (hincomplete : s.props.allowIncompletePages = true) : s.takeOut Layout.removePage x =
      .ok (s.setLayout (s.layout.lessItem s.props x q)) := by
  obtain ⟨A, -, hsound⟩ := h.sound
  rw [takeOut, fuel, Layout.removeItemData_of_incomplete hsound hx hincomplete]
  rfl

theorem moveItem_of_incomplete (hx : s.layout.items x = some q)
    (hincomplete : s.props.allowIncompletePages = true) {r : ℕ}
    (hchosen : (s.layout.lessItem s.props x q).choosePage s.props (some p) newPosition =
      some (some r)) :
    s.moveItem Layout.removePage x (some p) newPosition = within s.setLayout
      ((s.layout.lessItem s.props x q).addItemToPage s.props Layout.removePage
        (s.setLayout (s.layout.lessItem s.props x q)).fuel x (some r) newPosition) := by
  rw [moveItem_eq_putBack (by simp [hx]) (takeOut_of_incomplete h hx hincomplete)]
  exact putBack_of_chosen hchosen

theorem pagesLeft_of_incomplete (hx : s.layout.items x = some q)
    (hincomplete : s.props.allowIncompletePages = true) : s.pagesLeft x =
      if s.layout.Deletes s.props x q then s.layout.pages.length - 1 else s.layout.pages.length := by
  obtain ⟨A, -, hsound⟩ := h.sound
  rw [pagesLeft_eq h (by simp [hx]) (takeOut_of_incomplete h hx hincomplete)]
  exact Layout.length_lessItem hsound.toHolds hx

theorem Tidy.lessItem (hx : s.layout.items x = some q)
    (hincomplete : s.props.allowIncompletePages = true) :
    ∃ B, x ∉ B ∧ B.card ≤ s.children.length ∧ (s.layout.lessItem s.props x q).Sound s.props B ∧
      ∀ r, (s.layout.lessItem s.props x q).Fits s.props r := by
  obtain ⟨A, hA, hsound⟩ := h.sound
  have hu := takeOut_without hsound h.fits (x := x) (by simp [hx])
  rw [takeOut_of_incomplete h hx hincomplete] at hu
  obtain ⟨B, hB, hsound'⟩ := hu.sound
  exact ⟨B, fun hmem => Finset.notMem_erase x A (hB hmem),
    card_le_children ((hB.trans (Finset.erase_subset x A)).trans hA), hsound', hu.fits⟩

/-- **With a place for it** on the page that is chosen the item is there. -/
theorem moveItem_of_room (hx : s.layout.items x = some q)
    (hincomplete : s.props.allowIncompletePages = true) {r : ℕ}
    (hchosen : (s.layout.lessItem s.props x q).choosePage s.props (some p) newPosition =
      some (some r)) (hr : r ≤ (s.layout.lessItem s.props x q).pages.length)
    (hroom : ((s.layout.lessItem s.props x q).shownAt s.props r).length < s.props.itemsPerPage) :
    s.moveItem Layout.removePage x (some p) newPosition =
      .ok (s.setLayout ((s.layout.lessItem s.props x q).placed s.props x r newPosition)) := by
  obtain ⟨B, hxB, -, hsound, -⟩ := h.lessItem hx hincomplete
  have hfits : ((s.layout.lessItem s.props x q).placed s.props x r newPosition).Fits s.props r := by
    rw [Layout.Fits, Layout.length_shownAt_placed hr]
    split <;> omega
  rw [moveItem_of_incomplete h hx hincomplete hchosen, fuel,
    Layout.addItemToPage_of_fits Layout.removePage hsound hxB hr hfits]
  rfl

theorem placed_lessItem (hx : s.layout.items x = some q)
    (hincomplete : s.props.allowIncompletePages = true) {r : ℕ}
    (hr : r ≤ (s.layout.lessItem s.props x q).pages.length) (newPosition : ℤ) :
    ((s.layout.lessItem s.props x q).placed s.props x r newPosition).items x = some r ∧
      Layout.others x (((s.layout.lessItem s.props x q).placed s.props x r newPosition).childrenAt r) =
        (s.layout.lessItem s.props x q).childrenAt r := by
  obtain ⟨B, hxB, -, hsound, -⟩ := h.lessItem hx hincomplete
  refine ⟨by rw [Layout.items_placed hr, if_pos rfl], ?_⟩
  have hnot : x ∉ (s.layout.lessItem s.props x q).childrenAt r := by
    intro hmem
    have hitem := (hsound.record x r).mpr hmem
    exact hxB ((hsound.linked x).mp (by simp [hitem]))
  rw [Layout.childrenAt_placed hr, if_pos rfl, Layout.others_spliceIn_self, Layout.others_of_notMem hnot]

/-- **A page that is there**, if it keeps its children. -/
theorem arrives_of_kept (hx : s.layout.items x = some q)
    (hincomplete : s.props.allowIncompletePages = true) (hp : p < s.layout.pages.length)
    (hindex : s.indexAfter x q p = p) (hle : p ≤ (s.layout.lessItem s.props x q).pages.length)
    (hchildren : (s.layout.lessItem s.props x q).childrenAt p =
      Layout.others x (s.layout.childrenAt p)) (hfull : ¬ s.Full p) :
    s.Arrives x q p newPosition := by
  obtain ⟨B, -, -, hsound, -⟩ := h.lessItem hx hincomplete
  have hroom : ((s.layout.lessItem s.props x q).shownAt s.props p).length < s.props.itemsPerPage := by
    have hsublist : (Layout.others x (s.layout.childrenAt p)).Sublist (s.layout.childrenAt p) :=
      List.filter_sublist
    have hless := (hsublist.filter s.props.visible).length_le
    rw [Layout.shownAt, hchildren]
    exact Nat.lt_of_le_of_lt hless (Nat.lt_of_not_le hfull)
  have hchosen : (s.layout.lessItem s.props x q).choosePage s.props (some p) newPosition =
      some (some p) := Layout.choosePage_of_room hsound hle hroom
  have hmove := moveItem_of_room h hx hincomplete hchosen hle hroom
  refine ⟨_, hmove, moveItem_hasItem h (by simp [hx]) hmove, fun _ _ => ?_⟩
  obtain ⟨hitem, hothers⟩ := placed_lessItem h hx hincomplete hle newPosition
  rw [OnPage, if_pos hp, hindex]
  exact ⟨hitem, hothers.trans hchildren⟩

/-- **A new page.** -/
theorem arrives_of_new (hx : s.layout.items x = some q)
    (hincomplete : s.props.allowIncompletePages = true) (hp : p = s.layout.pages.length)
    (hchosen : (s.layout.lessItem s.props x q).choosePage s.props (some p) newPosition =
      some (some (s.layout.lessItem s.props x q).pages.length)) :
    s.Arrives x q p newPosition := by
  have hnone : (s.layout.lessItem s.props x q).childrenAt
      (s.layout.lessItem s.props x q).pages.length = [] := Layout.childrenAt_of_le le_rfl
  have hmove := moveItem_of_room h hx hincomplete hchosen le_rfl (by
    rw [Layout.shownAt, hnone]
    exact Layout.itemsPerPage_pos s.props)
  refine ⟨_, hmove, moveItem_hasItem h (by simp [hx]) hmove, fun _ _ => ?_⟩
  obtain ⟨hitem, hothers⟩ := placed_lessItem h hx hincomplete le_rfl newPosition
  have hlast : ((s.layout.lessItem s.props x q).placed s.props x
      (s.layout.lessItem s.props x q).pages.length newPosition).pages.length - 1 =
      (s.layout.lessItem s.props x q).pages.length := by
    rw [Layout.placed, Layout.length_attach, Layout.openPages_length]
    simp [Layout.appendPage]
  rw [OnPage, if_neg (by omega)]
  show Layout.items _ x = some (List.length _ - 1) ∧
    Layout.others x (Layout.childrenAt _ (List.length _ - 1)) = []
  rw [setLayout, hlast]
  exact ⟨hitem, hothers.trans hnone⟩

theorem arrives_of_second (hx : s.layout.items x = some q)
    (hincomplete : s.props.allowIncompletePages = true) (hp : p = s.layout.pages.length)
    (hone : s.layout.pages.length = 1)
    (hempty : (s.layout.lessItem s.props x q).pages.length = 0) (hposition : newPosition ≠ -1) :
    s.Arrives x q p newPosition := by
  obtain ⟨B, hxB, -, hsound, -⟩ := h.lessItem hx hincomplete
  have hpone : p = 1 := by omega
  subst hpone
  have hchosen : (s.layout.lessItem s.props x q).choosePage s.props (some 1) newPosition =
      some (some 1) := by
    rw [Layout.choosePage, if_neg hposition]
  have hmove : s.moveItem Layout.removePage x (some 1) newPosition =
      .ok (s.setLayout ((s.layout.lessItem s.props x q).second s.props x newPosition)) := by
    rw [moveItem_of_incomplete h hx hincomplete hchosen, fuel,
      Layout.addItemToPage_second Layout.removePage hsound hempty hxB]
    rfl
  refine ⟨_, hmove, moveItem_hasItem h (by simp [hx]) hmove, fun _ _ => ?_⟩
  have hpages : (s.layout.lessItem s.props x q).pages = [] := List.length_eq_zero_iff.mp hempty
  have hlength : ((s.layout.lessItem s.props x q).second s.props x newPosition).pages.length = 2 := by
    rw [Layout.second, Layout.length_attach]
    simp [Layout.appendPage, hpages]
  have hchildren : (s.layout.lessItem s.props x q).appendPage.appendPage.childrenAt 1 = [] := by
    rw [Layout.childrenAt_appendPage, Layout.childrenAt_appendPage, Layout.childrenAt_of_le (by omega)]
  rw [OnPage, if_neg (by omega)]
  show Layout.items _ x = some (List.length _ - 1) ∧
    Layout.others x (Layout.childrenAt _ (List.length _ - 1)) = []
  rw [setLayout, hlength]
  refine ⟨by rw [Layout.second, Layout.items_attach, if_pos rfl], ?_⟩
  rw [Layout.second, Layout.childrenAt_attach (by simp [Layout.appendPage, hpages]), if_pos rfl,
    Layout.others_spliceIn_self, hchildren]
  rfl

theorem moveItem_pushed (hx : s.layout.items x = some q)
    (hincomplete : s.props.allowIncompletePages = true)
    (hp : p ≤ (s.layout.lessItem s.props x q).pages.length)
    (ht : s.moveItem Layout.removePage x (some p) newPosition = .ok t) :
    ∃ r B, p ≤ r ∧ r ≤ (s.layout.lessItem s.props x q).pages.length ∧ x ∉ B ∧
      (s.layout.lessItem s.props x q).Sound s.props B ∧
      Layout.Pushed s.props 0 (s.layout.lessItem s.props x q) (insert x B) r t.layout ∧
      t.layout.shownAt s.props r =
        (((s.layout.lessItem s.props x q).placed s.props x r newPosition).shownAt s.props r).take
          s.props.itemsPerPage ∧
      (((s.layout.lessItem s.props x q).placed s.props x r newPosition).Fits s.props r →
        t.layout = (s.layout.lessItem s.props x q).placed s.props x r newPosition) := by
  obtain ⟨B, hxB, hcard, hsound, -⟩ := h.lessItem hx hincomplete
  obtain ⟨r, hchosen, hge, hle⟩ := Layout.choosePage_ge hsound hp newPosition
  refine ⟨r, B, hge, hle, hxB, hsound, ?_⟩
  rw [moveItem_of_incomplete h hx hincomplete hchosen] at ht
  have hweight := Layout.weight_le s.props (s.layout.lessItem s.props x q) B r
  have hspec := (Layout.surplus_spec s.props Layout.removePage
    (s.setLayout (s.layout.lessItem s.props x q)).fuel).2 0 _ B x r newPosition hsound (Nat.zero_le r)
    hxB hle (by
      have hchildren : (s.setLayout (s.layout.lessItem s.props x q)).children = s.children := rfl
      rw [fuel, hchildren]
      omega)
  obtain ⟨l, hl, rfl⟩ := exists_of_within ht
  rw [hl] at hspec
  refine ⟨hspec.1, hspec.2, fun hfits => ?_⟩
  rw [fuel, Layout.addItemToPage_of_fits Layout.removePage hsound hxB hle hfits] at hl
  exact (Except.ok.inj hl).symm

theorem not_arrives_of_lt (hx : s.layout.items x = some q)
    (hincomplete : s.props.allowIncompletePages = true) (hp : p < s.layout.pages.length)
    (hle : p ≤ (s.layout.lessItem s.props x q).pages.length)
    (hdeletes : s.layout.Deletes s.props x q) (hqp : q < p) (hfull : ¬ s.Full p) :
    ¬ s.Arrives x q p newPosition := by
  rintro ⟨t, ht, -, honPage⟩
  obtain ⟨r, B, hge, -, hxB, hsound, hpushed, -, -⟩ := moveItem_pushed h hx hincomplete hle ht
  have hitem := honPage hincomplete hfull
  rw [OnPage, if_pos hp, indexAfter, if_pos ⟨hqp, hdeletes⟩] at hitem
  -- the pages before the chosen one are as they were without the item
  have hmem := (hpushed.sound.record x (p - 1)).mp hitem.1
  rw [Layout.childrenAt_congr (hpushed.before (p - 1) (by omega)), ← hsound.record] at hmem
  exact hxB ((hsound.linked x).mp (by simp [hmem]))

theorem empty_of_arrives (hx : s.layout.items x = some q)
    (hincomplete : s.props.allowIncompletePages = true) (hq : q < s.layout.pages.length)
    (hle : q ≤ (s.layout.lessItem s.props x q).pages.length)
    (hdeletes : s.layout.Deletes s.props x q) (hfull : ¬ s.Full q)
    (harrives : s.Arrives x q q newPosition) :
    Layout.others x (s.layout.childrenAt q) = [] ∧ s.layout.childrenAt (q + 1) = [] := by
  obtain ⟨A, -, hsoundA⟩ := h.sound
  obtain ⟨t, ht, -, honPage⟩ := harrives
  obtain ⟨r, B, hge, -, hxB, hsound, hpushed, hshown, hplaced⟩ :=
    moveItem_pushed h hx hincomplete hle ht
  have hitem := honPage hincomplete hfull
  have hindex : s.indexAfter x q q = q := if_neg fun hlt => Nat.lt_irrefl q hlt.1
  rw [OnPage, if_pos hq, hindex] at hitem
  obtain ⟨hrecord, hothers⟩ := hitem
  -- the item is on the page that was chosen
  have hrq : r = q := by
    by_contra hne
    have hmem := (hpushed.sound.record x q).mp hrecord
    rw [Layout.childrenAt_congr (hpushed.before q (by omega)), ← hsound.record] at hmem
    exact hxB ((hsound.linked x).mp (by simp [hmem]))
  subst hrq
  have hnothing : Layout.others x (s.layout.childrenAt r) = [] := by
    -- what else was on the page is not an item any more
    refine List.eq_nil_iff_forall_not_mem.mpr fun y hy => ?_
    have hyx : y ≠ x := of_decide_eq_true (List.mem_filter.mp hy).2
    have hlost := Layout.items_lessItem_of_deletes hsoundA.toHolds hx hdeletes
      (List.mem_of_mem_filter hy)
    rw [← hothers] at hy
    have hitem' := (hpushed.sound.record y r).mpr (List.mem_of_mem_filter hy)
    have hmem := (hpushed.sound.linked y).mp (by simp [hitem'])
    exact (hsound.linked y).mpr ((Finset.mem_insert.mp hmem).resolve_left hyx) hlost
  refine ⟨hnothing, ?_⟩
  rw [hnothing] at hothers
  have hnext : (s.layout.lessItem s.props x r).childrenAt r = s.layout.childrenAt (r + 1) := by
    rw [Layout.childrenAt_lessItem_of_deletes hsoundA.toHolds hx hdeletes, if_neg (Nat.lt_irrefl r)]
  obtain ⟨-, -, -, -, hfitsLess⟩ := h.lessItem hx hincomplete
  have hcount := Layout.length_shownAt_placed (s := s.props) (x := x) hle newPosition
  have hlessFits : ((s.layout.lessItem s.props x r).shownAt s.props r).length ≤
      s.props.itemsPerPage := hfitsLess r
  by_cases hfits : ((s.layout.lessItem s.props x r).placed s.props x r newPosition).Fits s.props r
  · obtain ⟨-, hsame⟩ := placed_lessItem h hx hincomplete hle newPosition
    rw [← hnext, ← hsame, ← hplaced hfits, hothers]
  · -- the item is visible and was the only one, so there are two places at least, and both are taken
    exfalso
    have hmore : s.props.itemsPerPage <
        (((s.layout.lessItem s.props x r).placed s.props x r newPosition).shownAt s.props r).length :=
      Nat.lt_of_not_le hfits
    have hvisible : s.props.visible x = true := by
      by_contra hnot
      rw [hcount, if_neg hnot] at hmore
      omega
    have htwo : 1 < s.props.itemsPerPage := by
      have hmem : x ∈ s.layout.shownAt s.props r :=
        List.mem_filter.mpr ⟨(hsoundA.record x r).mp hx, hvisible⟩
      exact Nat.lt_of_le_of_lt (List.length_pos_of_mem hmem) (Nat.lt_of_not_le hfull)
    have hlength := congrArg List.length hshown
    rw [List.length_take, Nat.min_eq_left (Nat.le_of_lt hmore)] at hlength
    have hchildren : (t.layout.childrenAt r).length ≤ 1 := by
      have herase := List.le_length_erase (l := t.layout.childrenAt r) (a := x)
      rw [Layout.others_erase (hpushed.sound.nodup r), hothers, List.length_nil] at herase
      omega
    have hsub := (List.filter_sublist (p := s.props.visible) (l := t.layout.childrenAt r)).length_le
    rw [Layout.shownAt] at hlength
    omega

theorem arrives_of_full (hx : s.layout.items x = some q)
    (hincomplete : s.props.allowIncompletePages = true) (hfull : s.Full p) :
    s.Arrives x q p newPosition := by
  have hx' : s.layout.items x ≠ none := by simp [hx]
  have hlt : p < s.layout.pages.length := by
    by_contra hge
    have hpos := Layout.itemsPerPage_pos s.props
    rw [Full, Layout.shownAt, Layout.childrenAt_of_le (by omega), List.filter_nil,
      List.length_nil] at hfull
    omega
  have hleft : p ≤ s.pagesLeft x := by
    rw [pagesLeft_of_incomplete h hx hincomplete]
    split <;> omega
  have hreturns : ∃ t, s.moveItem Layout.removePage x (some p) newPosition = .ok t :=
    (moveItem_returns_iff h hx').mpr (.inr (.inl hleft))
  obtain ⟨t, ht⟩ := hreturns
  exact ⟨t, ht, moveItem_hasItem h hx' ht, fun _ hnot => absurd hfull hnot⟩

theorem arrives_of_not_deletes (hx : s.layout.items x = some q)
    (hincomplete : s.props.allowIncompletePages = true) (hp : p ≤ s.layout.pages.length)
    (hnot : ¬ s.layout.Deletes s.props x q) (hfull : ¬ s.Full p) : s.Arrives x q p newPosition := by
  obtain ⟨A, -, hsound⟩ := h.sound
  obtain ⟨B, -, -, hsoundB, -⟩ := h.lessItem hx hincomplete
  have hlength := Layout.length_lessItem (s := s.props) hsound.toHolds hx
  rw [if_neg hnot] at hlength
  rcases Nat.lt_or_eq_of_le hp with hlt | heq
  · have hindex : s.indexAfter x q p = p := if_neg fun hboth => hnot hboth.2
    exact arrives_of_kept h hx hincomplete hlt hindex (by omega)
      (Layout.childrenAt_lessItem_of_not hsound.toHolds hx hnot p) hfull
  · refine arrives_of_new h hx hincomplete heq ?_
    rw [hlength, ← heq]
    refine Layout.choosePage_of_room hsoundB (by omega) ?_
    rw [Layout.shownAt, Layout.childrenAt_of_le (by omega)]
    exact Layout.itemsPerPage_pos s.props

theorem arrives_new_iff (hx : s.layout.items x = some q)
    (hincomplete : s.props.allowIncompletePages = true) (hdeletes : s.layout.Deletes s.props x q) :
    s.Arrives x q s.layout.pages.length newPosition ↔
      newPosition = -1 ∨ s.layout.pages.length = 1 := by
  have hx' : s.layout.items x ≠ none := by simp [hx]
  obtain ⟨A, -, hsound⟩ := h.sound
  have hq := hsound.lt_length hx
  have hlength := Layout.length_lessItem (s := s.props) hsound.toHolds hx
  have hleft := pagesLeft_of_incomplete h hx hincomplete
  rw [if_pos hdeletes] at hlength hleft
  by_cases hposition : newPosition = -1
  · refine iff_of_true (arrives_of_new h hx hincomplete rfl ?_) (.inl hposition)
    rw [Layout.choosePage, if_pos hposition, Layout.findBestPageToAppend_of_le (by omega)]
    rfl
  · by_cases hone : s.layout.pages.length = 1
    · exact iff_of_true (arrives_of_second h hx hincomplete rfl hone (by omega) hposition)
        (.inr hone)
    · refine iff_of_false ?_ (not_or.mpr ⟨hposition, hone⟩)
      rintro ⟨t, ht, -⟩
      have hreturns := (moveItem_returns_iff h hx').mp ⟨t, ht⟩
      omega

theorem arrives_self_iff (hx : s.layout.items x = some q)
    (hincomplete : s.props.allowIncompletePages = true)
    (hdeletes : s.layout.Deletes s.props x q) (hfull : ¬ s.Full q) : s.Arrives x q q newPosition ↔
      Layout.others x (s.layout.childrenAt q) = [] ∧ s.layout.childrenAt (q + 1) = [] := by
  obtain ⟨A, -, hsound⟩ := h.sound
  have hq := hsound.lt_length hx
  have hlength := Layout.length_lessItem (s := s.props) hsound.toHolds hx
  rw [if_pos hdeletes] at hlength
  refine ⟨empty_of_arrives h hx hincomplete hq (by omega) hdeletes hfull, ?_⟩
  rintro ⟨hnothing, hnext⟩
  have hindex : s.indexAfter x q q = q := if_neg fun hboth => Nat.lt_irrefl q hboth.1
  refine arrives_of_kept h hx hincomplete hq hindex (by omega) ?_ hfull
  rw [Layout.childrenAt_lessItem_of_deletes hsound.toHolds hx hdeletes, if_neg (Nat.lt_irrefl q),
    hnext, hnothing]

theorem arrives_iff_of_deletes (hx : s.layout.items x = some q)
    (hincomplete : s.props.allowIncompletePages = true) (hp : p ≤ s.layout.pages.length)
    (hdeletes : s.layout.Deletes s.props x q) (hfull : ¬ s.Full p) :
    s.Arrives x q p newPosition ↔ p < q ∨
      (p = s.layout.pages.length ∧ (newPosition = -1 ∨ s.layout.pages.length = 1)) ∨
      (p = q ∧ Layout.others x (s.layout.childrenAt q) = [] ∧ s.layout.childrenAt (q + 1) = []) := by
  obtain ⟨A, -, hsound⟩ := h.sound
  have hq := hsound.lt_length hx
  have hlength := Layout.length_lessItem (s := s.props) hsound.toHolds hx
  rw [if_pos hdeletes] at hlength
  rcases Nat.lt_trichotomy p q with hlt | rfl | hgt
  · -- the pages before it stay where they are
    refine iff_of_true ?_ (.inl hlt)
    have hindex : s.indexAfter x q p = p := if_neg fun hboth => by omega
    have hother : x ∉ s.layout.childrenAt p := by
      intro hmem
      rw [← hsound.record, hx] at hmem
      exact absurd (Option.some.inj hmem) (Nat.ne_of_gt hlt)
    refine arrives_of_kept h hx hincomplete (by omega) hindex (by omega) ?_ hfull
    rw [Layout.childrenAt_lessItem_of_deletes hsound.toHolds hx hdeletes, if_pos hlt,
      Layout.others_of_notMem hother]
  · rw [arrives_self_iff h hx hincomplete hdeletes hfull]
    constructor
    · exact fun hboth => .inr (.inr ⟨rfl, hboth⟩)
    · rintro (hlt | ⟨heq, -⟩ | ⟨-, hboth⟩)
      · exact absurd hlt (Nat.lt_irrefl p)
      · omega
      · exact hboth
  · rcases Nat.lt_or_eq_of_le hp with hlt | rfl
    · refine iff_of_false
        (not_arrives_of_lt h hx hincomplete hlt (by omega) hdeletes hgt hfull) ?_
      rintro (h1 | ⟨h1, -⟩ | ⟨h1, -⟩) <;> omega
    · rw [arrives_new_iff h hx hincomplete hdeletes]
      constructor
      · exact fun hnew => .inr (.inl ⟨rfl, hnew⟩)
      · rintro (hlt | ⟨-, hnew⟩ | ⟨heq, -⟩)
        · omega
        · exact hnew
        · omega

end

end Moved

/-- **Where a moved item arrives.** In every state of a run that moves items only to pages that are
there without them, for every item of the grid, every page up to the number of pages and every
position. -/
theorem moveItem_arrives_iff {props : Props ι} {s : State ι} {x : ι} {p q : ℕ}
    (hreach : Runs.Reach step TargetThere (new props (some [])) s)
    (hx : s.layout.items x = some q) (hp : p ≤ s.layout.pages.length) (newPosition : ℤ) :
    s.Arrives x q p newPosition ↔ s.ArrivesWhen x q p newPosition := by
  have h := tidy_run hreach
  rw [ArrivesWhen]
  by_cases hincomplete : s.props.allowIncompletePages = true
  · rw [if_pos hincomplete]
    by_cases hfull : s.Full p
    · exact iff_of_true (arrives_of_full h hx hincomplete hfull) (.inr (.inr (.inl hfull)))
    by_cases hdeletes : s.layout.Deletes s.props x q
    · rw [arrives_iff_of_deletes h hx hincomplete hp hdeletes hfull]
      simp only [not_true_eq_false, hdeletes, hfull, false_or]
    · exact iff_of_true (arrives_of_not_deletes h hx hincomplete hp hdeletes hfull) (.inl hdeletes)
  · have hx' : s.layout.items x ≠ none := by simp [hx]
    rw [if_neg hincomplete, ← moveItem_returns_iff h hx']
    constructor
    · rintro ⟨t, ht, -⟩
      exact ⟨t, ht⟩
    · rintro ⟨t, ht⟩
      exact ⟨t, ht, moveItem_hasItem h hx' ht, fun hinc => absurd hinc hincomplete⟩

/-- Two pages with items 0, 1 and 2: item 0 can be moved to page 1, and item 2, the only one there,
cannot be moved to a page behind it. -/
theorem moveItem_arrives_three : ∃ s : State ℕ, Runs.run step (new twoColumns (some []))
    [.appendItem 0, .appendItem 1, .appendItem 2] = some s ∧
    s.Arrives 0 0 1 0 ∧ ¬ s.Arrives 2 1 2 0 := by
  have hallowed : Runs.Allowed step TargetThere (new twoColumns (some []))
      [.appendItem 0, .appendItem 1, .appendItem 2] := by
    decide +kernel
  have hrun : ∃ s ∈ Runs.run step (new twoColumns (some []))
      [.appendItem 0, .appendItem 1, .appendItem 2],
      s.layout.items 0 = some 0 ∧ s.layout.items 2 = some 1 ∧ s.layout.pages.length = 2 ∧
        s.ArrivesWhen 0 0 1 0 ∧ ¬ s.ArrivesWhen 2 1 2 0 := by
    decide +kernel
  obtain ⟨s, hs, hzero, htwo, hlength, hwhen, hnot⟩ := hrun
  have hreach := Runs.Reach.of_run _ hallowed hs
  refine ⟨s, hs, (moveItem_arrives_iff hreach hzero (by omega) 0).mpr hwhen, fun harrives => hnot ?_⟩
  exact (moveItem_arrives_iff hreach htwo (by omega) 0).mp harrives

/-- There item 2 is moved to page 2, the number of pages, and that throws. -/
theorem not_arrives_behind : ¬ ∀ (props : Props ℕ) (s : State ℕ) (x q p : ℕ) (newPosition : ℤ),
      Runs.Reachable step (new props (some [])) s → s.layout.items x = some q →
      p ≤ s.layout.pages.length →
      (newPosition = -1 ∨ 0 ≤ newPosition ∧ newPosition ≤ (s.layout.childrenAt p).length) →
      s.Arrives x q p newPosition := by
  intro h
  have hrun : ∃ s ∈ Runs.run step (new twoColumns (some []))
      [.appendItem 0, .appendItem 1, .appendItem 2],
      s.layout.items 2 = some 1 ∧ s.layout.pages.length = 2 ∧
        (s.moveItem Layout.removePage 2 (some 2) 0).toOption.isNone := by
    decide +kernel
  obtain ⟨s, hs, hitem, hlength, hthrows⟩ := hrun
  have hreach : Runs.Reachable step (new twoColumns (some [])) s := Runs.Reachable.of_run _ hs
  obtain ⟨t, ht, -⟩ := h twoColumns s 2 1 2 0 hreach hitem (by omega)
    (.inr ⟨le_rfl, Int.natCast_nonneg _⟩)
  rw [ht] at hthrows
  cases hthrows

end State

end IconGrid
