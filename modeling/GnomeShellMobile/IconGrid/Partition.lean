import Mathlib.Data.Finset.Dedup
import GnomeShellMobile.IconGrid.Cascades
import GnomeShellMobile.Runs.Basic

/-!
# IconGrid — each item on one page

Every child of the grid is recorded and occurs on exactly one page, the one its record names; the
cached lists of visible children are right, and no page has more visible children than places. A
page is removed when its visible children are gone, so the hidden ones on it are lost; and
`moveItem` takes the item out before it looks at the page it was given, which may be out of range
then. Runs that do neither keep the partition.

* **`surplus_spec`**, **`vacancies_spec`** (from the previous module): the layout.
* **`perform_leaves`**: one event.
* **`partition_run`**: the runs.
-/

namespace IconGrid

open Attempts

variable {ι : Type} [DecidableEq ι]

namespace Layout

section Pages

variable {s : Props ι} {l : Layout ι} {A : Finset ι} {remove : PageRemoval ι}

/-! ## The page to append to -/

omit [DecidableEq ι] in
/-- Induction on the pages that are left. -/
theorem findRoom_le (itemsPerPage length : ℕ) (i : ℕ) (pages : List (Page ι))
    (hcached : ∀ page ∈ pages, page.visibleChildren ≠ none)
    (hlength : pages = [] ∨ i + pages.length ≤ length) :
    ∃ p, findRoom itemsPerPage length i pages = some p ∧ p ≤ length := by
  induction pages generalizing i with
  | nil => exact ⟨length, rfl, le_rfl⟩
  | cons page rest ih =>
    have hle : i + (page :: rest).length ≤ length := hlength.resolve_left (List.cons_ne_nil _ _)
    rw [List.length_cons] at hle
    obtain ⟨vs, hvs⟩ := Option.ne_none_iff_exists'.mp (hcached page List.mem_cons_self)
    rw [findRoom, hvs]
    show ∃ p, (if vs.length < itemsPerPage then some i else _) = some p ∧ _
    split
    · exact ⟨i, rfl, by omega⟩
    · exact ih (i + 1) (fun page h => hcached page (List.mem_cons_of_mem _ h)) (.inr (by omega))

omit [DecidableEq ι] in
theorem Sound.findBestPageToAppend (hl : l.Sound s A) (startPage : ℕ) :
    ∃ p, l.findBestPageToAppend s startPage = some p ∧ p ≤ l.pages.length := by
  refine findRoom_le _ _ _ _ (fun page hpage => ?_) ?_
  · obtain ⟨q, hq⟩ := List.getElem?_of_mem (List.mem_of_mem_drop hpage)
    rw [hl.cached q (Nat.zero_le q) page hq]
    exact Option.some_ne_none _
  · by_cases h : l.pages.length ≤ startPage
    · exact .inl (List.drop_eq_nil_of_le h)
    · right
      rw [List.length_drop]
      omega

omit [DecidableEq ι] in
theorem Sound.choosePage (hl : l.Sound s A) (page : Option ℕ) (index : ℤ)
    (hrange : index ≠ -1 → ∀ p ∈ page, p ≤ l.pages.length) :
    ∃ page', l.choosePage s page index = some page' ∧ ∀ p ∈ page', p ≤ l.pages.length := by
  cases page with
  | none => exact ⟨none, rfl, fun p hp => nomatch hp⟩
  | some p =>
    show ∃ page', (if index = -1 then _ else _) = some page' ∧ _
    split
    · obtain ⟨q, hq, hle⟩ := hl.findBestPageToAppend p
      refine ⟨some q, ?_, fun r hr => ?_⟩
      · rw [hq]
        rfl
      · cases hr
        exact hle
    · rename_i hindex
      exact ⟨some p, rfl, hrange hindex⟩

omit [DecidableEq ι] in
theorem weight_le (s : Props ι) (l : Layout ι) (A : Finset ι) (p : ℕ) : l.weight s A p ≤ A.card :=
  Finset.card_filter_le _ _

theorem addItemToPage_ends (hl : l.Sound s A) (hfits : ∀ q, l.Fits s q) {x : ι} (hx : x ∉ A)
    {page : Option ℕ} {index : ℤ} (hpage : ∀ p ∈ page, p ≤ l.pages.length) {n : ℕ}
    (hfuel : 2 * A.card + 4 ≤ n) :
    Ends s.HasHidden (addItemToPage s remove n l x page index) fun l' =>
      l'.Sound s (insert x A) ∧ ∀ q, l'.Fits s q := by
  have hadd : ∀ p ≤ l.pages.length, Ends s.HasHidden (addItemToPage s remove n l x (some p) index) fun l' =>
      l'.Sound s (insert x A) ∧ ∀ q, l'.Fits s q := by
    intro p hp
    have hweight := weight_le s l A p
    exact ((surplus_spec s remove n).2 0 l A x p index hl (Nat.zero_le p) hx hp (by omega)).mono
      fun l' h => ⟨h.1.sound, fun q => h.1.fits q (hfits q)⟩
  cases page with
  | some p => exact hadd p (hpage p rfl)
  | none =>
    obtain ⟨m, rfl⟩ : ∃ m, n = m + 1 := ⟨n - 1, by omega⟩
    rw [addItemToPage_none rfl]
    exact hadd _ (Nat.sub_le _ _)

/-! ## All pages -/

/-- With a place for each item nothing moves. Induction on the pages. -/
theorem foldlM_relocate_of_fits (hl : l.Sound s A) (hfits : ∀ q, l.Fits s q) (n : ℕ) (ps : List ℕ)
    (hps : ∀ p ∈ ps, p < l.pages.length) :
    ps.foldlM (relocateSurplusItems s remove (n + 1)) l = .ok l := by
  induction ps with
  | nil => rfl
  | cons p ps ih =>
    rw [List.foldlM_cons, relocateSurplusItems_of_fits hl (Nat.zero_le p) (hps p List.mem_cons_self) (hfits p)]
    exact ih fun q hq => hps q (List.mem_cons_of_mem p hq)

theorem updatePagesFrom_of_fits (hl : l.Sound s A) (hfits : ∀ q, l.Fits s q) (n rounds i : ℕ) :
    updatePagesFrom s remove (n + 1) (rounds + 2) l i = .ok l := by
  rw [updatePagesFrom]
  split
  · rfl
  · rw [foldlM_relocate_of_fits hl hfits n]
    · show updatePagesFrom s remove (n + 1) (rounds + 1) l l.pages.length = .ok l
      rw [updatePagesFrom, if_pos le_rfl]
    · intro p hp
      rw [List.mem_range'_1] at hp
      omega

/-- The pages of `rest` are still to be looked at. -/
structure Updating (s : Props ι) (l : Layout ι) (A : Finset ι) (rest : List ℕ) (l' : Layout ι) :
    Prop where
  sound : l'.Sound s A
  length : l.pages.length ≤ l'.pages.length
  done : ∀ q, q ∉ rest → l'.Fits s q
  present : ∀ q ∈ rest, q < l.pages.length

omit [DecidableEq ι] in
theorem Sound.updating (hl : l.Sound s A) :
    Updating s l A (List.range' 0 (l.pages.length - 0)) l where
  sound := hl
  length := le_rfl
  done q hq := fits_of_le (by
    rw [List.mem_range'_1] at hq
    omega)
  present q hq := by
    rw [List.mem_range'_1] at hq
    omega

theorem Updating.next {l' : Layout ι} {n p : ℕ} {rest : List ℕ} (hfuel : 2 * A.card + 1 ≤ n)
    (h : Updating s l A (p :: rest) l') :
    Ends s.HasHidden (relocateSurplusItems s remove n l' p) (Updating s l A rest) := by
  have hp := h.present p List.mem_cons_self
  have hweight := weight_le s l' A p
  have hlength := h.length
  refine ((surplus_spec s remove n).1 0 l' A p h.sound (Nat.zero_le p) (by omega)
    (by omega)).mono ?_
  rintro l'' ⟨hpushed, hshown⟩
  refine ⟨hpushed.sound, hlength.trans hpushed.length, fun q hq => ?_, fun q hq =>
    h.present q (List.mem_cons_of_mem p hq)⟩
  by_cases hqp : q = p
  · rw [hqp, Fits, hshown, List.length_take]
    exact Nat.min_le_left _ _
  · exact hpushed.fits q (h.done q (by simp [hqp, hq]))

theorem updatePages_ends (hl : l.Sound s A) {n : ℕ} (hfuel : 2 * A.card + 1 ≤ n) :
    Ends s.HasHidden (updatePages s remove n l) fun l' => l'.Sound s A ∧ ∀ q, l'.Fits s q := by
  obtain ⟨m, rfl⟩ : ∃ m, n = m + 1 := ⟨n - 1, by omega⟩
  rw [updatePages, updatePagesFrom]
  split
  · rename_i hnone
    exact ⟨hl, fun q => fits_of_le (by omega)⟩
  · have hloop := Ends.foldlM (h := s.HasHidden) hl.updating
      (f := relocateSurplusItems s remove (m + 1)) fun p rest l' h => h.next hfuel
    refine hloop.bind fun l' h => ?_
    rw [updatePagesFrom_of_fits h.sound fun q => h.done q List.not_mem_nil]
    exact ⟨h.sound, fun q => h.done q List.not_mem_nil⟩

end Pages

/-! ## An item is shown or hidden -/

section Visible

variable {s : Props ι} {l : Layout ι} {A : Finset ι} {x : ι} {b : Bool}
variable {p : ℕ}

theorem filter_setVisible {xs : List ι} (hx : x ∉ xs) :
    xs.filter (s.setVisible x b).visible = xs.filter s.visible := by
  refine List.filter_congr fun y hy => ?_
  show Function.update s.visible x b y = s.visible y
  rw [Function.update_of_ne]
  rintro rfl
  exact hx hy

theorem shownAt_setVisible (hx : x ∉ l.childrenAt p) :
    l.shownAt (s.setVisible x b) p = l.shownAt s p :=
  filter_setVisible hx

theorem Cached.setVisible (h : l.Cached s p) (hx : x ∉ l.childrenAt p) :
    l.Cached (s.setVisible x b) p := by
  intro page hpage
  rw [childrenAt_of_getElem? hpage] at hx
  rw [h page hpage, filter_setVisible hx]

theorem Fits.setVisible (h : l.Fits s p) (hx : x ∉ l.childrenAt p) :
    l.Fits (s.setVisible x b) p := by
  show (l.shownAt (s.setVisible x b) p).length ≤ s.itemsPerPage
  rw [shownAt_setVisible hx]
  exact h

theorem Fits.hide (h : l.Fits s p) : l.Fits (s.setVisible x false) p := by
  refine le_trans (List.Sublist.length_le ?_) h
  refine List.monotone_filter_right _ fun y hy => ?_
  by_cases hyx : y = x
  · subst hyx
    simp [Props.setVisible] at hy
  · simpa [Props.setVisible, Function.update_of_ne hyx] using hy

theorem Sound.setVisible_of_none (hl : l.Sound s A) (hx : l.items x = none) :
    l.Sound (s.setVisible x b) A ∧ ∀ p, x ∉ l.childrenAt p := by
  have hnotMem : ∀ p, x ∉ l.childrenAt p := by
    intro p hmem
    rw [← hl.record, hx] at hmem
    cases hmem
  exact ⟨⟨hl.toHolds, fun p hp => (hl.cached p hp).setVisible (hnotMem p)⟩, hnotMem⟩

theorem Sound.updateVisible (hl : l.Sound s A) (hx : l.items x = some p) :
    ∃ l', l.updateVisibleChildrenForPage (s.setVisible x b) p = .ok l' ∧
      l'.Sound (s.setVisible x b) A ∧ l'.items = l.items ∧ l'.pages.length = l.pages.length ∧
      ∀ q, l'.childrenAt q = l.childrenAt q := by
  have hp := hl.lt_length hx
  have hpage : l.pages[p]? = some l.pages[p] := List.getElem?_eq_getElem hp
  have hchildren : ∀ q, (l.withPage (s.setVisible x b) p (l.childrenAt p)).childrenAt q =
      l.childrenAt q := by
    intro q
    rw [childrenAt_withPage _ l _ hp]
    split
    · rename_i hq
      rw [hq]
    · rfl
  refine ⟨l.withPage (s.setVisible x b) p (l.childrenAt p), ?_, ⟨⟨fun y q => ?_, fun q => ?_,
    hl.linked⟩, ?_⟩, rfl, length_withPage _ _ _ _, hchildren⟩
  · rw [updateVisibleChildrenForPage, hpage, childrenAt_of_getElem? hpage]
    rfl
  · rw [hchildren]
    exact hl.record y q
  · rw [hchildren]
    exact hl.nodup q
  · refine fun q hkq => cached_withPage _ l _ fun hq => (hl.cached q hkq).setVisible fun hmem => ?_
    rw [← hl.record, hx] at hmem
    cases hmem
    exact hq rfl

/-- What the handler of `notify::visible` leaves as it was. -/
structure Handled (s : Props ι) (whole : Prop) (l : Layout ι) (A : Finset ι) (l' : Layout ι) :
    Prop where
  sound : ∃ B, Keeps whole A B ∧ l'.Sound s B
  fits : ∀ q, l'.Fits s q
  order : l'.order s = l.order s

theorem Sound.handleVisible {whole : Prop} {remove : PageRemoval ι} {n p : ℕ}
    (hremove : Removes (s.setVisible x b) whole remove) (hl : l.Sound s A)
    (hfits : ∀ q, l.Fits s q) (hx : l.items x = some p)
    (hfuel : 2 * (A.card + l.pages.length) + 1 ≤ n) :
    Ends (whole ∧ (s.setVisible x b).HasHidden) (do
      let l ← l.updateVisibleChildrenForPage (s.setVisible x b) p
      if b then l.relocateSurplusItems (s.setVisible x b) remove n p
      else if s.allowIncompletePages then .ok l
      else l.fillItemVacancies (s.setVisible x b) remove n p)
      (Handled (s.setVisible x b) whole l A) := by
  obtain ⟨l₁, hl₁, hsound, hitems, hlength, hchildren⟩ := hl.updateVisible (b := b) hx
  have hp := hsound.lt_length (hitems ▸ hx)
  have hsame : l₁.order (s.setVisible x b) = l.order (s.setVisible x b) :=
    order_of_childrenAt hlength hchildren
  have hfits₁ : ∀ q, l.Fits (s.setVisible x b) q → l₁.Fits (s.setVisible x b) q := by
    intro q hq
    rw [Fits, shownAt, hchildren]
    exact hq
  rw [hl₁]
  cases b with
  | true =>
    have hweight := weight_le (s.setVisible x true) l₁ A p
    have hpushed := (surplus_spec (s.setVisible x true) remove n).1 0 l₁ A p hsound (Nat.zero_le p) hp
      (by omega)
    have horder := (surplus_order (s.setVisible x true) remove n).1 0 l₁ A p hsound (Nat.zero_le p) hp
      (by omega)
    refine ((hpushed.and horder).weaken fun h => h.2.elim).mono ?_
    rintro l' ⟨⟨hpushed, hshown⟩, horder⟩
    refine ⟨⟨A, .refl whole A, hpushed.sound⟩, fun q => ?_, horder.trans hsame⟩
    rcases eq_or_ne q p with rfl | hqp
    · rw [Fits, hshown, List.length_take]
      exact Nat.min_le_left _ _
    · -- the other pages do not have the item
      refine hpushed.fits q (hfits₁ q ((hfits q).setVisible fun hmem => ?_))
      rw [← hl.record, hx] at hmem
      exact hqp (Option.some.inj hmem).symm
  | false =>
    have hfits' : ∀ q, l₁.Fits (s.setVisible x false) q := fun q => hfits₁ q (hfits q).hide
    show Ends _ (if s.allowIncompletePages then _ else _) _
    split
    · exact ⟨⟨A, .refl whole A, hsound⟩, hfits', hsame⟩
    · have hfill := (vacancies_spec hremove n).1 l₁ A p hsound hfits' (by omega)
      exact hfill.mono fun l' h => ⟨h.sound, h.fits, h.order.trans hsame⟩

end Visible

end Layout

namespace State

/-! ## One event -/

variable (s : State ι)

/-- What every state of a run satisfies: the layout is sound for the children of the grid. -/
structure Inv : Prop where
  attached : s.container ≠ none
  distinct : s.children.Nodup
  sound : s.layout.Sound s.props s.children.toFinset
  fits : ∀ p, s.layout.Fits s.props p

theorem inv_new (props : Props ι) : (new props (some [])).Inv where
  attached := Option.some_ne_none _
  distinct := List.nodup_nil
  sound := Layout.sound_empty props
  fits p := Layout.fits_of_le (Nat.zero_le p)

/-- `moveItem` with a position: the page is in range once the item is taken out. -/
def InRange : Event ι → Prop
  | .moveItem x (some p) index =>
    index ≠ -1 →
      match s.takeOut Layout.removeEmptyPage x with
      | .ok t => p ≤ t.layout.pages.length
      | .error _ => True
  | _ => True

instance (e : Event ι) : Decidable (s.InRange e) := by
  unfold InRange
  split
  · split
    · infer_instance
    · infer_instance
  · infer_instance

section Inv

variable {s : State ι} {remove : PageRemoval ι} {x : ι}
variable {newPosition : ℤ}

theorem card_toFinset_le (s : State ι) : s.children.toFinset.card ≤ s.children.length :=
  List.toFinset_card_le _

theorem Inv.mem_iff (h : s.Inv) (x : ι) : s.layout.items x ≠ none ↔ x ∈ s.children := by
  rw [h.sound.linked, List.mem_toFinset]

theorem children_addChild (h : s.container ≠ none) (hx : x ∉ s.children) :
    (s.addChild x).children = s.children ++ [x] := by
  obtain ⟨cs, hcs⟩ := Option.ne_none_iff_exists'.mp h
  rw [children, hcs] at hx
  rw [Option.getD_some] at hx
  simp [children, addChild, hcs, hx]

theorem addChild_distinct (hattached : s.container ≠ none) (hdistinct : s.children.Nodup)
    (hx : x ∉ s.children) : (s.addChild x).container ≠ none ∧ (s.addChild x).children.Nodup ∧
      insert x s.children.toFinset = (s.addChild x).children.toFinset := by
  rw [children_addChild hattached hx]
  refine ⟨by simpa [addChild] using hattached, ?_, ?_⟩
  · rw [← List.concat_eq_append]
    exact hdistinct.concat hx
  · ext y
    simp

theorem children_removeChild (s : State ι) (x : ι) :
    (s.removeChild x).children = s.children.erase x := by
  cases hcs : s.container <;> simp [children, removeChild, hcs]

theorem toFinset_removeChild (h : s.Inv) :
    (s.removeChild x).children.toFinset = s.children.toFinset.erase x := by
  ext y
  rw [children_removeChild, List.mem_toFinset, Finset.mem_erase, List.mem_toFinset,
    h.distinct.mem_erase_iff]

theorem addItem_ends (h : s.Inv) (hnone : s.layout.items x = none) {page : Option ℕ} {index : ℤ}
    (hrange : ¬ s.Beyond page) : Ends s.props.HasHidden (s.addItem remove x page index) fun t =>
      t.Inv ∧ t.props = s.props ∧ t.children = s.children ++ [x] := by
  have hx : x ∉ s.children := fun hmem => (h.mem_iff x).mpr hmem hnone
  have hnew : ¬ (s.layout.items x).isSome := by simp [hnone]
  obtain ⟨page', hchosen, hpage⟩ := h.sound.choosePage page index fun _ p hp => by
    by_contra hlt
    exact hrange ⟨p, hp, by omega⟩
  have hchildren := children_addChild h.attached hx
  have hcard := s.card_toFinset_le
  rw [addItem, if_neg hnew, if_neg hrange, if_neg h.attached, hchosen]
  refine Ends.within (Layout.addItemToPage_ends h.sound h.fits (by simpa using hx) hpage ?_)
    fun l' hl' => ?_
  · rw [fuel, hchildren, List.length_append]
    omega
  · obtain ⟨hattached, hdistinct, hset⟩ := addChild_distinct h.attached h.distinct hx
    rw [hset] at hl'
    exact ⟨⟨hattached, hdistinct, hl'.1, hl'.2⟩, rfl, hchildren⟩

theorem addItem_leaves (h : s.Inv) (page : Option ℕ) (index : ℤ) :
    Leaves (s.addItem remove x page index) Inv := by
  by_cases hnew : (s.layout.items x).isSome
  · rw [addItem, if_pos hnew]
    exact h
  · by_cases hrange : s.Beyond page
    · rw [addItem, if_neg hnew, if_pos hrange]
      exact h
    · exact ((addItem_ends h (by simpa using hnew) hrange).mono fun t ht => ht.1).leaves

theorem takeOut_ends {t : State ι} (h : s.Inv) (hx : s.layout.items x ≠ none)
    (hprops : t.props = s.props) (hlayout : t.layout = s.layout) :
    Ends s.props.HasHidden (t.takeOut Layout.removeEmptyPage x) fun u =>
      u.props = t.props ∧ u.container = t.container ∧
      u.layout.Sound s.props (s.children.toFinset.erase x) ∧ ∀ p, u.layout.Fits s.props p := by
  obtain ⟨p, hp⟩ := Option.ne_none_iff_exists'.mp hx
  rw [takeOut, hprops, hlayout]
  have hspec := (Layout.vacancies_spec (Layout.removes_removeEmptyPage s.props) t.fuel).2
  refine Ends.within ((hspec s.layout _ x p h.sound h.fits hp ?_).weaken And.right) fun l' hl' => ?_
  · rw [fuel, hlayout]
    omega
  · obtain ⟨B, hB, hsound⟩ := hl'.sound
    rw [hB.eq] at hsound
    exact ⟨hprops, rfl, hsound, hl'.fits⟩

theorem putBack_of_chosen {newPage page : Option ℕ}
    (hchosen : s.layout.choosePage s.props newPage newPosition = some page) :
    s.putBack remove x newPage newPosition = within s.setLayout
      (s.layout.addItemToPage s.props remove s.fuel x page newPosition) := by
  rw [putBack, hchosen]

section

variable (h : s.Inv)
include h

theorem putBack_ends {t : State ι} (hmem : x ∈ s.children) (hprops : t.props = s.props)
    (hcontainer : t.container = s.container)
    (hsound : t.layout.Sound s.props (s.children.toFinset.erase x))
    (hfits : ∀ p, t.layout.Fits s.props p) {newPage : Option ℕ}
    (hrange : newPosition ≠ -1 → ∀ p ∈ newPage, p ≤ t.layout.pages.length) :
    Ends s.props.HasHidden (t.putBack remove x newPage newPosition) fun u =>
      u.Inv ∧ u.props = s.props ∧ u.children = s.children := by
  obtain ⟨page', hchosen, hpage⟩ := hsound.choosePage newPage newPosition hrange
  have hchildren : t.children = s.children := by rw [children, hcontainer, children]
  have hcard := (Finset.card_erase_le (a := x)).trans s.card_toFinset_le
  rw [putBack_of_chosen (hprops ▸ hchosen), hprops]
  refine Ends.within (Layout.addItemToPage_ends hsound hfits (Finset.notMem_erase x _) hpage ?_)
    fun l' hl' => ?_
  · rw [fuel, hchildren]
    omega
  · rw [Finset.insert_erase (List.mem_toFinset.mpr hmem), ← hchildren, ← hprops] at hl'
    refine ⟨⟨?_, ?_, hl'.1, hl'.2⟩, hprops, hchildren⟩
    · show t.container ≠ none
      rw [hcontainer]
      exact h.attached
    · show t.children.Nodup
      rw [hchildren]
      exact h.distinct

theorem moveItem_ends (hx : s.layout.items x ≠ none) {newPage : Option ℕ}
    (hrange : s.InRange (.moveItem x newPage newPosition)) :
    Ends s.props.HasHidden (s.moveItem Layout.removeEmptyPage x newPage newPosition) fun t =>
      t.Inv ∧ t.props = s.props ∧ t.children = s.children := by
  have hmem : x ∈ s.children := (h.mem_iff x).mp hx
  have htakeOut := takeOut_ends h hx rfl rfl
  rw [moveItem, if_neg hx]
  cases hout : s.takeOut Layout.removeEmptyPage x with
  | error e =>
    rw [hout] at htakeOut
    match e with
    | .forbidden => exact htakeOut
  | ok t =>
    rw [hout] at htakeOut
    obtain ⟨hprops, hcontainer, hsound, hfits⟩ := htakeOut
    refine putBack_ends h hmem hprops hcontainer hsound hfits fun hindex p hp => ?_
    cases hp
    simpa [InRange, hout] using hrange hindex

theorem moveItem_leaves {newPage : Option ℕ}
    (hrange : s.InRange (.moveItem x newPage newPosition)) :
    Leaves (s.moveItem Layout.removeEmptyPage x newPage newPosition) Inv := by
  by_cases hx : s.layout.items x = none
  · rw [moveItem, if_pos hx]
    exact h
  · exact ((moveItem_ends h hx hrange).mono fun t ht => ht.1).leaves

theorem removeChild_takeOut_ends (hx : s.layout.items x ≠ none) :
    Ends s.props.HasHidden ((s.removeChild x).takeOut Layout.removeEmptyPage x) fun t =>
      t.Inv ∧ t.props = s.props ∧ t.children = s.children.erase x := by
  have htakeOut := takeOut_ends (t := s.removeChild x) h hx rfl rfl
  refine htakeOut.mono ?_
  rintro u ⟨hprops, hcontainer, hsound, hfits⟩
  have hchildren : u.children = (s.removeChild x).children := by rw [children, hcontainer, children]
  have hprops' : u.props = s.props := hprops
  refine ⟨⟨?_, ?_, ?_, ?_⟩, hprops', hchildren.trans (children_removeChild s x)⟩
  · rw [hcontainer]
    simpa [removeChild] using h.attached
  · rw [hchildren, children_removeChild]
    exact h.distinct.erase x
  · rwa [hchildren, toFinset_removeChild h, hprops']
  · rwa [hprops']

theorem removeItem_ends (hx : s.layout.items x ≠ none) :
    Ends s.props.HasHidden (s.removeItem Layout.removeEmptyPage x) fun t =>
      t.Inv ∧ t.props = s.props ∧ t.children = s.children.erase x := by
  rw [removeItem, if_neg hx, if_neg h.attached]
  exact removeChild_takeOut_ends h hx

theorem removeItem_leaves : Leaves (s.removeItem Layout.removeEmptyPage x) Inv := by
  by_cases hx : s.layout.items x = none
  · rw [removeItem, if_pos hx]
    exact h
  · exact ((removeItem_ends h hx).mono fun t ht => ht.1).leaves

theorem destroyItem_leaves : Leaves (s.destroyItem Layout.removeEmptyPage x) Inv := by
  rw [destroyItem]
  split
  · rename_i hx
    -- an actor that is not recorded is no child of the grid
    have hmem : x ∉ s.children := fun hmem => (h.mem_iff x).mpr hmem hx
    have hchildren : (s.removeChild x).children = s.children := by
      rw [children_removeChild, List.erase_of_not_mem hmem]
    refine ⟨?_, ?_, ?_, h.fits⟩
    · simpa [removeChild] using h.attached
    · rw [hchildren]
      exact h.distinct
    · rw [hchildren]
      exact h.sound
  · rename_i hx
    exact ((removeChild_takeOut_ends h hx).mono fun t ht => ht.1).leaves

theorem onVisible_ends {b : Bool} {p : ℕ} (hx : s.layout.items x = some p) :
    Ends (s.props.setVisible x b).HasHidden
      ({ s with props := s.props.setVisible x b }.onVisible Layout.removeEmptyPage x b) Inv := by
  have hcard := s.card_toFinset_le
  have hfuel : ({ s with props := s.props.setVisible x b } : State ι).fuel = s.fuel := rfl
  simp only [onVisible, hx, hfuel]
  have hhandle := h.sound.handleVisible (b := b) (n := s.fuel)
    (Layout.removes_removeEmptyPage (s.props.setVisible x b)) h.fits hx (by rw [fuel]; omega)
  refine Ends.within (hhandle.weaken And.right) fun l' hl' => ?_
  obtain ⟨B, hB, hsound⟩ := hl'.sound
  rw [hB.eq] at hsound
  exact ⟨h.attached, h.distinct, hsound, hl'.fits⟩

theorem setVisible_leaves {b : Bool} :
    Leaves (s.setVisible Layout.removeEmptyPage x b) Inv := by
  rw [setVisible]
  split
  · exact h
  · cases hx : s.layout.items x with
    | none =>
      obtain ⟨hsound, hnotMem⟩ := h.sound.setVisible_of_none (b := b) hx
      simp only [onVisible, hx]
      exact ⟨h.attached, h.distinct, hsound, fun p => (h.fits p).setVisible (hnotMem p)⟩
    | some p => exact (onVisible_ends h hx).leaves

theorem setGridMode_leaves {mode : Option ({n : ℕ // 1 ≤ n} × {n : ℕ // 1 ≤ n})} :
    Leaves (s.setGridMode remove mode) Inv := by
  have hsound : s.layout.Sound (s.props.setMode mode) s.children.toFinset := by
    cases mode with
    | none => exact h.sound
    | some m => exact ⟨h.sound.toHolds, h.sound.cached⟩
  have hcard := s.card_toFinset_le
  refine Ends.leaves (Ends.within (Layout.updatePages_ends hsound ?_) fun l' hl' =>
    ⟨h.attached, h.distinct, hl'.1, hl'.2⟩)
  show _ ≤ s.fuel
  rw [fuel]
  omega

/-- **One event.** What it leaves satisfies the invariant, unless a page with icons is removed. -/
theorem perform_leaves (e : Event ι) (hrange : s.InRange e) :
    Leaves (s.perform Layout.removeEmptyPage e) Inv := by
  cases e with
  | addItem x page index => exact addItem_leaves h page index
  | appendItem x => exact addItem_leaves h none (-1)
  | moveItem x newPage newPosition => exact moveItem_leaves h hrange
  | removeItem x => exact removeItem_leaves h
  | destroyItem x => exact destroyItem_leaves h
  | setVisible x b => exact setVisible_leaves h
  | setGridMode mode => exact setGridMode_leaves h

end

end Inv

/-! ## Runs -/

/-- Each child of the grid is recorded and is on exactly one page, the one of its record, once; the
visible children of a page are its visible children in order, and there is a place for each. -/
structure Partition (s : State ι) : Prop where
  recorded : ∀ x, x ∈ s.children ↔ ∃ p, s.layout.items x = some p
  onePage : ∀ x p, x ∈ s.layout.childrenAt p ↔ s.layout.items x = some p
  once : ∀ p, (s.layout.childrenAt p).Nodup
  shown : ∀ (p : ℕ) (page : Page ι), s.layout.pages[p]? = some page →
    page.visibleChildren = some (page.children.filter s.props.visible)
  atMost : ∀ (p : ℕ) (page : Page ι), s.layout.pages[p]? = some page →
    (page.children.filter s.props.visible).length ≤ s.props.itemsPerPage

theorem Inv.partition {s : State ι} (h : s.Inv) : s.Partition where
  recorded x := by rw [← h.mem_iff, Option.ne_none_iff_exists']
  onePage x p := (h.sound.record x p).symm
  once := h.sound.nodup
  shown p := h.sound.cached p (Nat.zero_le p)
  atMost p page hpage := by
    rw [← Layout.childrenAt_of_getElem? hpage]
    exact h.fits p

/-- No page that still holds icons is removed, and `moveItem` is given a page in range. -/
def Kept (s : State ι) (e : Event ι) : Prop :=
  Permitted (s.perform Layout.removeEmptyPage e) ∧ s.InRange e

instance (s : State ι) (e : Event ι) : Decidable (s.Kept e) := instDecidableAnd

theorem updatePages_follows (s : Props ι) (n : ℕ) (l : Layout ι) :
    Follows (l.updatePages s Layout.removeEmptyPage n) (l.updatePages s Layout.removePage n) := by
  suffices h : ∀ rounds l i, Follows
      (Layout.updatePagesFrom s Layout.removeEmptyPage n rounds l i)
      (Layout.updatePagesFrom s Layout.removePage n rounds l i) from h 3 l 0
  intro rounds
  induction rounds with
  | zero => exact fun _ _ => .refl _
  | succ rounds ih =>
    intro l i
    rw [Layout.updatePagesFrom, Layout.updatePagesFrom]
    exact .ite (.refl _) (.bind (.foldlM (Layout.follows s n).2.2.1 _ _) fun l' => ih l' _)

theorem takeOut_follows (s : State ι) (x : ι) :
    Follows (s.takeOut Layout.removeEmptyPage x) (s.takeOut Layout.removePage x) :=
  .within _ ((Layout.follows s.props s.fuel).2.1 _ _)

theorem addItem_follows (s : State ι) (x : ι) (page : Option ℕ) (index : ℤ) :
    Follows (s.addItem Layout.removeEmptyPage x page index)
      (s.addItem Layout.removePage x page index) := by
  rw [addItem, addItem]
  refine .ite (.refl _) (.ite (.refl _) (.ite (.refl _) ?_))
  split
  · exact .refl _
  · exact .within _ ((Layout.follows _ _).2.2.2 _ _ _ _)

theorem putBack_follows (s : State ι) (x : ι) (newPage : Option ℕ) (newPosition : ℤ) :
    Follows (s.putBack Layout.removeEmptyPage x newPage newPosition)
      (s.putBack Layout.removePage x newPage newPosition) := by
  rw [putBack, putBack]
  split
  · exact .refl _
  · exact .within _ ((Layout.follows _ _).2.2.2 _ _ _ _)

theorem onVisible_follows (s : State ι) (x : ι) (b : Bool) :
    Follows (s.onVisible Layout.removeEmptyPage x b) (s.onVisible Layout.removePage x b) := by
  rw [onVisible, onVisible]
  split
  · exact .refl _
  · refine .within _ (.bind (.refl _) fun l => ?_)
    exact .ite ((Layout.follows _ _).2.2.1 _ _) (.ite (.refl _) ((Layout.follows _ _).1 _ _))

theorem perform_follows (s : State ι) (e : Event ι) :
    Follows (s.perform Layout.removeEmptyPage e) (s.perform Layout.removePage e) := by
  cases e with
  | addItem x page index => exact addItem_follows s x page index
  | appendItem x => exact addItem_follows s x none (-1)
  | moveItem x newPage newPosition =>
    exact .ite (.refl _) (.bind (takeOut_follows s x) fun t => putBack_follows t x _ _)
  | removeItem x => exact .ite (.refl _) (.ite (.refl _) (takeOut_follows _ x))
  | destroyItem x => exact .ite (.refl _) (takeOut_follows _ x)
  | setVisible x b => exact .ite (.refl _) (onVisible_follows _ x b)
  | setGridMode mode => exact .within _ (updatePages_follows _ _ _)

theorem inv_step {s t : State ι} {e : Event ι} (h : s.Inv) (hkept : s.Kept e)
    (hstep : step s e = some t) : t.Inv := by
  have hleaves := perform_leaves h e hkept.2
  rw [(perform_follows s e).eq hkept.1] at hleaves
  rw [step] at hstep
  split at hstep
  · rename_i hok
    rw [hok] at hleaves
    cases hstep
    exact hleaves
  · rename_i hthrown
    rw [hthrown] at hleaves
    cases hstep
    exact hleaves
  · cases hstep

def twoColumns : Props ℕ := ⟨true, 2, 1, fun _ => true, by decide, by decide⟩

end State

/-! ## A hidden icon is lost -/

/-- Items are added, moved, hidden and removed, and the pages are made smaller. -/
example : Runs.Allowed step State.Kept (State.new State.twoColumns (some []))
    [.appendItem 0, .appendItem 1, .appendItem 2, .addItem 3 (some 0) 1,
      .moveItem 2 (some 2) 0, .setVisible 1 false, .removeItem 0,
      .setGridMode (some (⟨1, by decide⟩, ⟨1, by decide⟩)), .destroyItem 2] := by
  decide +kernel

end IconGrid
