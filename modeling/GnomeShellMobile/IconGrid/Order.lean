import GnomeShellMobile.IconGrid.Sound

/-!
# IconGrid — the order of the visible items

The visible items of all pages, page after page. An item that leaves a page or enters one leaves the
others in their order, and so does a page that is removed when it shows nothing, with whatever hidden
items it has.
-/

namespace IconGrid

open Attempts

variable {ι : Type}

namespace Layout

variable (s : Props ι)

variable (l : Layout ι)

def order : List ι :=
  l.pages.flatMap fun page => page.children.filter s.visible

def orderTo (p : ℕ) : List ι :=
  (l.pages.take p).flatMap fun page => page.children.filter s.visible

def orderFrom (p : ℕ) : List ι :=
  (l.pages.drop p).flatMap fun page => page.children.filter s.visible

section Pages

variable {s : Props ι} {l l' : Layout ι} {p : ℕ}

theorem order_split (s : Props ι) (l : Layout ι) (p : ℕ) :
    l.order s = l.orderTo s p ++ l.orderFrom s p := by
  rw [order, orderTo, orderFrom, ← List.flatMap_append, List.take_append_drop]

theorem orderFrom_eq (s : Props ι) (l : Layout ι) (p : ℕ) :
    l.orderFrom s p = l.shownAt s p ++ l.orderFrom s (p + 1) := by
  rcases Nat.lt_or_ge p l.pages.length with hp | hp
  · have hpage : l.pages[p]? = some l.pages[p] := List.getElem?_eq_getElem hp
    rw [orderFrom, List.drop_eq_getElem_cons hp, List.flatMap_cons, shownAt,
      childrenAt_of_getElem? hpage, orderFrom]
  · rw [orderFrom, List.drop_eq_nil_of_le hp, shownAt, childrenAt_of_le hp, orderFrom,
      List.drop_eq_nil_of_le (Nat.le_succ_of_le hp)]
    rfl

theorem orderTo_succ (s : Props ι) (l : Layout ι) (p : ℕ) :
    l.orderTo s (p + 1) = l.orderTo s p ++ l.shownAt s p := by
  have hsplit := (order_split s l p).symm.trans (order_split s l (p + 1))
  rw [orderFrom_eq, ← List.append_assoc] at hsplit
  exact (List.append_cancel_right hsplit).symm

theorem order_eq (s : Props ι) (l : Layout ι) (p : ℕ) :
    l.order s = l.orderTo s p ++ l.shownAt s p ++ l.orderFrom s (p + 1) := by
  rw [order_split s l p, orderFrom_eq, List.append_assoc]

theorem orderTo_congr (h : ∀ q < p, l'.pages[q]? = l.pages[q]?) : l'.orderTo s p = l.orderTo s p := by
  have htake : l'.pages.take p = l.pages.take p := by
    refine List.ext_getElem? fun q => ?_
    rw [List.getElem?_take, List.getElem?_take]
    split
    · next hq => exact h q hq
    · rfl
  rw [orderTo, htake, orderTo]

theorem orderFrom_congr (h : ∀ q, p ≤ q → l'.pages[q]? = l.pages[q]?) :
    l'.orderFrom s p = l.orderFrom s p := by
  have hdrop : l'.pages.drop p = l.pages.drop p := by
    refine List.ext_getElem? fun q => ?_
    rw [List.getElem?_drop, List.getElem?_drop]
    exact h (p + q) (Nat.le_add_right p q)
  rw [orderFrom, hdrop, orderFrom]

theorem order_of_page (h : ∀ q, q ≠ p → l'.pages[q]? = l.pages[q]?) :
    l'.order s = l.orderTo s p ++ l'.shownAt s p ++ l.orderFrom s (p + 1) := by
  rw [order_eq s l' p, orderTo_congr fun q hq => h q (by omega),
    orderFrom_congr fun q hq => h q (by omega)]

theorem order_of_childrenAt (hlength : l'.pages.length = l.pages.length)
    (h : ∀ q, l'.childrenAt q = l.childrenAt q) : l'.order s = l.order s := by
  have hmap : ∀ l : Layout ι, l.order s = (l.pages.map Page.children).flatMap (List.filter s.visible) :=
    fun l => (List.flatMap_map _ _ _).symm
  have hpages : l'.pages.map Page.children = l.pages.map Page.children := by
    refine List.ext_getElem (by rw [List.length_map, List.length_map, hlength]) fun q hq hq' => ?_
    rw [List.length_map] at hq hq'
    have hq'' := h q
    rw [childrenAt_of_getElem? (List.getElem?_eq_getElem hq),
      childrenAt_of_getElem? (List.getElem?_eq_getElem hq')] at hq''
    rw [List.getElem_map, List.getElem_map, hq'']
  rw [hmap, hmap, hpages]

theorem order_dropPage (hshown : l.shownAt s p = []) : (l.dropPage p).order s = l.order s := by
  have hbefore : ∀ q < p, (l.dropPage p).pages[q]? = l.pages[q]? := fun q hq => by
    rw [getElem?_dropPage, if_pos hq]
  have hbehind : (l.dropPage p).orderFrom s p = l.orderFrom s (p + 1) := by
    have hdrop : (l.dropPage p).pages.drop p = l.pages.drop (p + 1) := by
      refine List.ext_getElem? fun q => ?_
      rw [List.getElem?_drop, List.getElem?_drop, getElem?_dropPage, if_neg (by omega)]
      congr 1
      omega
    rw [orderFrom, hdrop, orderFrom]
  rw [order_split s _ p, orderTo_congr hbefore, hbehind, order_eq s l p, hshown, List.append_nil]

theorem order_appendPage (l : Layout ι) : l.appendPage.order s = l.order s := by
  rw [order, appendPage, List.flatMap_append, order]
  simp

theorem mem_order {x : ι} : x ∈ l.order s ↔ ∃ p, x ∈ l.shownAt s p := by
  rw [order, List.mem_flatMap]
  constructor
  · rintro ⟨page, hpage, hx⟩
    obtain ⟨p, hp⟩ := List.getElem?_of_mem hpage
    exact ⟨p, by rwa [shownAt, childrenAt_of_getElem? hp]⟩
  · rintro ⟨p, hx⟩
    have hp := lt_length_of_mem (List.mem_filter.mp hx).1
    have hpage : l.pages[p]? = some l.pages[p] := List.getElem?_eq_getElem hp
    refine ⟨l.pages[p], List.getElem_mem hp, ?_⟩
    rwa [shownAt, childrenAt_of_getElem? hpage] at hx

end Pages

variable [DecidableEq ι]

def others (x : ι) (xs : List ι) : List ι := xs.filter fun y => y ≠ x

theorem others_append (x : ι) (xs ys : List ι) : others x (xs ++ ys) = others x xs ++ others x ys :=
  List.filter_append _ _

theorem others_of_notMem {x : ι} {xs : List ι} (h : x ∉ xs) : others x xs = xs :=
  List.filter_eq_self.mpr fun _ hy => decide_eq_true fun heq => h (heq ▸ hy)

theorem others_others (x : ι) (xs : List ι) : others x (others x xs) = others x xs :=
  others_of_notMem fun hmem => of_decide_eq_true (List.mem_filter.mp hmem).2 rfl

theorem others_erase {x : ι} {xs : List ι} (h : xs.Nodup) : xs.erase x = others x xs := by
  rw [h.erase_eq_filter]
  refine List.filter_congr fun y _ => ?_
  show (!(y == x)) = decide (y ≠ x)
  rw [Bool.beq_eq_decide_eq, decide_not]

theorem others_spliceIn (xs : List ι) (i : ℤ) (x : ι) (visible : ι → Bool) :
    others x ((spliceIn xs i x).filter visible) = others x (xs.filter visible) := by
  have hself : others x ([x].filter visible) = [] := by
    rw [others, List.filter_eq_nil_iff]
    intro y hy
    have hyx : y = x := List.mem_singleton.mp (List.mem_of_mem_filter hy)
    simp [hyx]
  conv_rhs => rw [← List.take_append_drop (spliceStart xs.length i) xs]
  rw [spliceIn, ← List.singleton_append, List.filter_append, List.filter_append, others_append,
    others_append, hself, List.nil_append, List.filter_append, others_append]

theorem others_spliceIn_self (xs : List ι) (i : ℤ) (x : ι) :
    others x (spliceIn xs i x) = others x xs := by
  have h := others_spliceIn xs i x fun _ => true
  rwa [List.filter_true, List.filter_true] at h

section Items

variable {s : Props ι} {k : ℕ} {l : Layout ι} {A : Finset ι} {x : ι} {p : ℕ}

omit [DecidableEq ι] in
theorem Holds.notMem_shownAt (hl : l.Holds A) (hx : l.items x = some p) {q : ℕ} (hq : q ≠ p) :
    x ∉ l.shownAt s q := by
  intro hmem
  have hitem := (hl.record x q).mpr (List.mem_filter.mp hmem).1
  rw [hx] at hitem
  exact hq (Option.some.inj hitem).symm

omit [DecidableEq ι] in
theorem Holds.notMem_orderTo (hl : l.Holds A) (hx : l.items x = some p) : x ∉ l.orderTo s p := by
  intro hmem
  obtain ⟨page, hpage, hshown⟩ := List.mem_flatMap.mp hmem
  obtain ⟨q, hq⟩ := List.getElem?_of_mem hpage
  rw [List.getElem?_take] at hq
  split at hq
  · next hlt =>
    refine hl.notMem_shownAt (s := s) hx (Nat.ne_of_lt hlt) ?_
    rwa [shownAt, childrenAt_of_getElem? hq]
  · cases hq

omit [DecidableEq ι] in
theorem Holds.notMem_orderFrom (hl : l.Holds A) (hx : l.items x = some p) :
    x ∉ l.orderFrom s (p + 1) := by
  intro hmem
  obtain ⟨page, hpage, hshown⟩ := List.mem_flatMap.mp hmem
  obtain ⟨q, hq⟩ := List.getElem?_of_mem hpage
  rw [List.getElem?_drop] at hq
  refine hl.notMem_shownAt (s := s) hx (q := p + 1 + q) (by omega) ?_
  rwa [shownAt, childrenAt_of_getElem? hq]

/-- **An item leaves its page.** The others stay in their order. -/
theorem order_detach (hl : l.Holds A) (hx : l.items x = some p) :
    (l.detach s x p).order s = others x (l.order s) := by
  have hnodup : (l.shownAt s p).Nodup := (hl.nodup p).filter _
  rw [order_of_page fun q hq => getElem?_detach_ne hq, shownAt_detach hl hx, others_erase hnodup,
    order_eq s l p, others_append, others_append, others_of_notMem (hl.notMem_orderTo hx),
    others_of_notMem (hl.notMem_orderFrom hx)]

theorem order_attach (hp : p < l.pages.length) (i : ℤ) : (l.attach s x p i).order s =
      l.orderTo s p ++ (spliceIn (l.childrenAt p) i x).filter s.visible ++ l.orderFrom s (p + 1) := by
  rw [order_of_page fun q hq => getElem?_attach_ne hq, shownAt, childrenAt_attach hp, if_pos rfl]

omit [DecidableEq ι] in
theorem Holds.mem_of_mem_order (hl : l.Holds A) (hx : x ∈ l.order s) : x ∈ A := by
  obtain ⟨q, hq⟩ := mem_order.mp hx
  have hitem := (hl.record x q).mpr (List.mem_filter.mp hq).1
  exact (hl.linked x).mp (by rw [hitem]; exact Option.some_ne_none q)

/-- **An item enters a page.** The others stay in their order. -/
theorem others_order_attach (hl : l.Holds A) (hx : x ∉ A) (hp : p < l.pages.length) (i : ℤ) :
    others x ((l.attach s x p i).order s) = l.order s := by
  rw [order_attach hp, others_append, others_append, others_spliceIn]
  show others x (l.orderTo s p) ++ others x (l.shownAt s p) ++ others x (l.orderFrom s (p + 1)) = _
  rw [← others_append, ← others_append, ← order_eq, others_of_notMem (mt hl.mem_of_mem_order hx)]

theorem others_order_setVisible (s : Props ι) (l : Layout ι) (x : ι) (b : Bool) :
    others x (l.order (s.setVisible x b)) = others x (l.order s) := by
  unfold others order
  rw [List.filter_flatMap, List.filter_flatMap]
  congr 1
  funext page
  rw [List.filter_filter, List.filter_filter]
  refine List.filter_congr fun y _ => ?_
  rcases eq_or_ne y x with rfl | hyx
  · rw [decide_eq_false (not_not_intro rfl), Bool.false_and, Bool.false_and]
  · rw [Props.setVisible]
    show (_ && Function.update s.visible x b y) = _
    rw [Function.update_of_ne hyx]

/-! ## A page with hidden items is removed -/

def emptied (s : Props ι) (l : Layout ι) (p : ℕ) : Layout ι :=
  { l.withPage s p [] with items := fun x => if x ∈ l.childrenAt p then none else l.items x }

/-- The items of a page are unlinked. Induction on the list. -/
theorem foldlM_unlinkItem (xs : List ι) (hnodup : xs.Nodup) (h : ∀ x ∈ xs, l.items x ≠ none) :
    xs.foldlM unlinkItem l = .ok { l with items := fun x => if x ∈ xs then none else l.items x } := by
  induction xs generalizing l with
  | nil => simp [Pure.pure, Except.pure]
  | cons x xs ih =>
    obtain ⟨hx, hxs⟩ := List.nodup_cons.mp hnodup
    obtain ⟨q, hq⟩ := Option.ne_none_iff_exists'.mp (h x List.mem_cons_self)
    have hunlink : l.unlinkItem x = .ok (l.clearItem x) := by
      rw [unlinkItem, hq]
      rfl
    have hrest : ∀ y ∈ xs, (l.clearItem x).items y ≠ none := by
      intro y hy
      have hyx : y ≠ x := fun heq => hx (heq ▸ hy)
      show Function.update l.items x none y ≠ none
      rw [Function.update_of_ne hyx]
      exact h y (List.mem_cons_of_mem x hy)
    rw [List.foldlM_cons, hunlink]
    show xs.foldlM unlinkItem (l.clearItem x) = _
    rw [ih hxs hrest]
    congr 2
    funext y
    show (if y ∈ xs then none else Function.update l.items x none y) = _
    by_cases hyx : y = x
    · rw [hyx, if_neg hx, Function.update_self, if_pos List.mem_cons_self]
    · simp only [Function.update_of_ne hyx, List.mem_cons, hyx, false_or]

theorem removePage_eq (hl : l.Holds A) (hp : p < l.pages.length) :
    removePage l p = .ok ((l.emptied s p).dropPage p) := by
  have hpage : l.pages[p]? = some l.pages[p] := List.getElem?_eq_getElem hp
  have hchildren := childrenAt_of_getElem? hpage
  have hrecorded : ∀ x ∈ l.pages[p].children, l.items x ≠ none := by
    intro x hx
    rw [← hchildren, ← hl.record] at hx
    rw [hx]
    exact Option.some_ne_none p
  rw [removePage, hpage]
  show (l.pages[p].children.foldlM unlinkItem l >>= _) = _
  rw [foldlM_unlinkItem _ (hchildren ▸ hl.nodup p) hrecorded]
  show Except.ok (Layout.mk (l.pages.eraseIdx p) _) = Except.ok (Layout.mk ((l.pages.set p _).eraseIdx p) _)
  rw [List.eraseIdx_set_eq, ← hchildren]
  rfl

theorem SoundFrom.emptied (hl : l.SoundFrom s k A) (hp : p < l.pages.length) :
    (l.emptied s p).SoundFrom s k (A \ (l.childrenAt p).toFinset) where
  record x q := by
    show (if x ∈ l.childrenAt p then none else l.items x) = some q ↔ x ∈ (l.withPage s p []).childrenAt q
    rw [childrenAt_withPage s l [] hp]
    by_cases hx : x ∈ l.childrenAt p
    · rw [if_pos hx]
      refine iff_of_false nofun ?_
      split
      · exact List.not_mem_nil
      · next hq =>
        rw [← hl.record, (hl.record x p).mpr hx]
        exact fun heq => hq (Option.some.inj heq).symm
    · rw [if_neg hx, hl.record]
      split
      · next hq =>
        rw [hq]
        exact iff_of_false hx List.not_mem_nil
      · exact Iff.rfl
  nodup q := by
    show ((l.withPage s p []).childrenAt q).Nodup
    rw [childrenAt_withPage s l [] hp]
    split
    · exact List.nodup_nil
    · exact hl.nodup q
  linked x := by
    show (if x ∈ l.childrenAt p then none else l.items x) ≠ none ↔ _
    rw [Finset.mem_sdiff, List.mem_toFinset, ← hl.linked]
    split
    · next hx => exact iff_of_false (fun h => h rfl) fun h => h.2 hx
    · next hx => rw [and_iff_left hx]
  cached q hq := cached_withPage s l _ fun _ => hl.cached q hq

theorem childrenAt_emptied (hp : p < l.pages.length) : (l.emptied s p).childrenAt p = [] := by
  show (l.withPage s p []).childrenAt p = []
  rw [childrenAt_withPage s l [] hp, if_pos rfl]

theorem order_emptied (hp : p < l.pages.length) (hshown : l.shownAt s p = []) :
    (l.emptied s p).order s = l.order s := by
  have hempty : (l.emptied s p).shownAt s p = [] := by
    rw [shownAt, childrenAt_emptied hp]
    rfl
  have hsame : ∀ q, q ≠ p → (l.emptied s p).pages[q]? = l.pages[q]? :=
    fun q hq => getElem?_withPage_ne s l [] hq
  rw [order_of_page hsame, hempty, order_eq s l p, hshown]

end Items

end Layout

end IconGrid
