import GnomeShellMobile.IconGrid.Beyond

/-!
# IconGrid — the order of the items over a run

An event changes the place of its own item only: in a state of a run the visible items other than
that one come in the same order before and after it. Hidden items may be lost with their page, so a
state of a run is `Tidy` for some of the children of the grid. What a run must not do is to move an
item, at a position, to a page that is not there any more once the item is taken out: that throws
and leaves the item recorded on a page it is not on, and taking it out later takes the last item of
that page with it.

* **`perform_tidy`**: one event.
* **`order_run`**: the runs.
-/

namespace IconGrid

open Attempts

variable {ι : Type} [DecidableEq ι]

namespace Layout

section Order

variable {s : Props ι} {l : Layout ι} {A : Finset ι} {x : ι} {p : ℕ} {remove : PageRemoval ι}

theorem addItemToPage_order (hl : l.Sound s A) (hfits : ∀ q, l.Fits s q) (hx : x ∉ A)
    {page : Option ℕ} {index : ℤ} (hpage : ∀ p ∈ page, p ≤ l.pages.length) {n : ℕ}
    (hfuel : 2 * A.card + 4 ≤ n) : Ends False (addItemToPage s remove n l x page index) fun l' =>
      (l'.Sound s (insert x A) ∧ ∀ q, l'.Fits s q) ∧ others x (l'.order s) = l.order s := by
  have hadd : ∀ p ≤ l.pages.length, Ends False (addItemToPage s remove n l x (some p) index)
      fun l' => others x (l'.order s) = l.order s := by
    intro p hp
    have hweight := weight_le s l A p
    refine ((surplus_order s remove n).2 0 l A x p index hl (Nat.zero_le p) hx hp (by omega)).mono
      fun l' h => ?_
    rw [h, placed, others_order_attach (hl.toHolds.openPages hp) hx (length_openPages hp).2,
      order_openPages hp]
  have horder : Ends False (addItemToPage s remove n l x page index) fun l' =>
      others x (l'.order s) = l.order s := by
    cases page with
    | some p => exact hadd p (hpage p rfl)
    | none =>
      obtain ⟨m, rfl⟩ : ∃ m, n = m + 1 := ⟨n - 1, by omega⟩
      rw [addItemToPage_none rfl]
      exact hadd _ (Nat.sub_le _ _)
  exact ((addItemToPage_ends hl hfits hx hpage hfuel).and horder).weaken And.right

theorem updatePages_order (hl : l.Sound s A) {n : ℕ} (hfuel : 2 * A.card + 1 ≤ n) :
    Ends False (updatePages s remove n l) fun l' =>
      (l'.Sound s A ∧ ∀ q, l'.Fits s q) ∧ l'.order s = l.order s := by
  have horder : Ends False (updatePages s remove n l) fun l' => l'.order s = l.order s := by
    obtain ⟨m, rfl⟩ : ∃ m, n = m + 1 := ⟨n - 1, by omega⟩
    rw [updatePages, updatePagesFrom]
    split
    · rfl
    · have hloop := Ends.foldlM (h := False) (f := relocateSurplusItems s remove (m + 1))
        (I := fun rest l' => Updating s l A rest l' ∧ l'.order s = l.order s)
        ⟨hl.updating, rfl⟩ fun p rest l' h => ?_
      · refine hloop.bind fun l' h => ?_
        rw [updatePagesFrom_of_fits h.1.sound fun q => h.1.done q List.not_mem_nil]
        exact h.2
      · have hp := h.1.present p List.mem_cons_self
        have hweight := weight_le s l' A p
        have hlength := h.1.length
        have hsame := (surplus_order s remove (m + 1)).1 0 l' A p h.1.sound (Nat.zero_le p)
          (by omega) (by omega)
        exact (((h.1.next hfuel).and hsame).weaken And.right).mono fun l'' h' =>
          ⟨h'.1, h'.2.trans h.2⟩
  exact ((updatePages_ends hl hfuel).and horder).weaken And.right

end Order

end Layout

def Event.subject : Event ι → Option ι
  | .addItem x _ _ => some x
  | .appendItem x => some x
  | .moveItem x _ _ => some x
  | .removeItem x => some x
  | .destroyItem x => some x
  | .setVisible x _ => some x
  | .setGridMode _ => none

namespace State

def order (s : State ι) : List ι := s.layout.order s.props

variable (s : State ι)

def KeepsOrder (e : Event ι) (t : State ι) : Prop :=
  match e.subject with
  | none => t.order = s.order
  | some x => Layout.others x t.order = Layout.others x s.order

instance (e : Event ι) (t : State ι) : Decidable (s.KeepsOrder e t) := by
  unfold KeepsOrder
  split <;> infer_instance

def pagesLeft (x : ι) : ℕ :=
  match s.removeItem Layout.removePage x with
  | .ok t => t.layout.pages.length
  | .error _ => s.layout.pages.length

def TargetThere : Event ι → Prop
  | .moveItem x (some p) newPosition =>
    s.layout.items x ≠ none → newPosition ≠ -1 → p ≤ s.pagesLeft x
  | _ => True

instance (e : Event ι) : Decidable (s.TargetThere e) := by
  rcases e with _ | _ | ⟨_, _ | _, _⟩ <;> unfold TargetThere <;> infer_instance

structure Tidy : Prop where
  attached : s.container ≠ none
  sound : ∃ A ⊆ s.children.toFinset, s.layout.Sound s.props A
  fits : ∀ p, s.layout.Fits s.props p

theorem tidy_new (props : Props ι) : (new props (some [])).Tidy where
  attached := Option.some_ne_none _
  sound := ⟨∅, Finset.empty_subset _, Layout.sound_empty props⟩
  fits p := Layout.fits_of_le (Nat.zero_le p)

theorem card_le_children {s : State ι} {A : Finset ι} (h : A ⊆ s.children.toFinset) :
    A.card ≤ s.children.length :=
  (Finset.card_le_card h).trans (List.toFinset_card_le _)

section Item

variable {s u : State ι} {A : Finset ι} {x : ι}

/-! ## An item is taken out -/

structure Without (s : State ι) (A : Finset ι) (x : ι) (u : State ι) : Prop where
  props : u.props = s.props
  container : u.container = s.container
  sound : ∃ B ⊆ A.erase x, u.layout.Sound u.props B
  fits : ∀ q, u.layout.Fits u.props q
  order : u.order = Layout.others x s.order

theorem takeOut_without (hsound : s.layout.Sound s.props A) (hfits : ∀ q, s.layout.Fits s.props q)
    (hx : s.layout.items x ≠ none) :
    Ends False (s.takeOut Layout.removePage x) (s.Without A x) := by
  obtain ⟨p, hp⟩ := Option.ne_none_iff_exists'.mp hx
  have hspec := (Layout.vacancies_spec (Layout.removes_removePage s.props) s.fuel).2 s.layout A x p
    hsound hfits hp (by rw [fuel]; omega)
  refine (hspec.weaken And.left).within fun l' hl' => ?_
  obtain ⟨B, hB, hl⟩ := hl'.sound
  exact ⟨rfl, rfl, ⟨B, hB.1, hl⟩, hl'.fits,
    hl'.order.trans (Layout.order_detach hsound.toHolds hp)⟩

theorem pagesLeft_eq (h : s.Tidy) (hx : s.layout.items x ≠ none)
    (hu : s.takeOut Layout.removePage x = .ok u) : s.pagesLeft x = u.layout.pages.length := by
  obtain ⟨A, hA, hsound⟩ := h.sound
  have hremoved := takeOut_without (s := s.removeChild x) hsound h.fits hx
  obtain ⟨t, ht, -⟩ := hremoved.returns id
  have hless : (s.removeChild x).fuel ≤ s.fuel := by
    have hle : (s.removeChild x).children.length ≤ s.children.length := by
      rw [children_removeChild]
      exact List.length_erase_le
    have hpages : (s.removeChild x).layout.pages.length = s.layout.pages.length := rfl
    rw [fuel, fuel]
    omega
  -- the child is gone there, so the fuel is less
  obtain ⟨l, hl, rfl⟩ := exists_of_within ht
  have hmore := Layout.removeItemData_prolonged s.props Layout.removePage s.layout x hless l hl
  rw [takeOut, hmore] at hu
  have hu' : s.setLayout l = u := Except.ok.inj hu
  rw [pagesLeft, removeItem, if_neg hx, if_neg h.attached, ht, ← hu']
  rfl

/-! ## An item is put back -/

section

variable (hu : s.Without A x u)
include hu

theorem Without.subset_children (hA : A ⊆ s.children.toFinset) :
    A.erase x ⊆ u.children.toFinset := by
  rw [children, hu.container]
  exact (Finset.erase_subset x A).trans hA

theorem Without.putBack (h : s.Tidy) (hA : A ⊆ s.children.toFinset)
    (hx : x ∈ A) {newPage : Option ℕ} {newPosition : ℤ}
    (hrange : newPosition ≠ -1 → ∀ p ∈ newPage, p ≤ u.layout.pages.length) :
    Ends False (u.putBack Layout.removePage x newPage newPosition) fun t =>
      (t.Tidy ∧ t.layout.items x ≠ none) ∧ Layout.others x t.order = u.order := by
  obtain ⟨B, hB, hsound⟩ := hu.sound
  have hxB : x ∉ B := fun hmem => Finset.notMem_erase x A (hB hmem)
  obtain ⟨page, hchosen, hpage⟩ := hsound.choosePage newPage newPosition hrange
  have hcard := card_le_children (hB.trans (hu.subset_children hA))
  rw [putBack_of_chosen hchosen]
  refine (Layout.addItemToPage_order hsound hu.fits hxB hpage ?_).within fun l' hl' => ?_
  · rw [fuel]
    omega
  · refine ⟨⟨⟨?_, ⟨insert x B, ?_, hl'.1.1⟩, hl'.1.2⟩, ?_⟩, hl'.2⟩
    · show u.container ≠ none
      rw [hu.container]
      exact h.attached
    · show insert x B ⊆ u.children.toFinset
      rw [children, hu.container]
      exact Finset.insert_subset (hA hx) ((hB.trans (Finset.erase_subset x A)).trans hA)
    · exact (hl'.1.1.linked x).mpr (Finset.mem_insert_self x B)

theorem Without.putBack_some (h : s.Tidy) (hA : A ⊆ s.children.toFinset)
    (hx : x ∈ A) {p : ℕ} {newPosition : ℤ} (hrange : newPosition = -1 ∨ p ≤ u.layout.pages.length) :
    Ends False (u.putBack Layout.removePage x (some p) newPosition) fun t =>
      (t.Tidy ∧ t.layout.items x ≠ none) ∧ Layout.others x t.order = u.order :=
  hu.putBack h hA hx fun hposition r hr => by
    cases hr
    exact hrange.resolve_left hposition

theorem Without.putBack_beyond {p : ℕ} {newPosition : ℤ}
    (hposition : newPosition ≠ -1) (hp : u.layout.pages.length < p) :
    (∃ t, u.putBack Layout.removePage x (some p) newPosition = .error (.thrown t)) ∧
        ¬ (u.layout.pages.length = 0 ∧ p = 1) ∨
      (u.layout.pages.length = 0 ∧ p = 1) ∧
        u.putBack Layout.removePage x (some p) newPosition =
          .ok (u.setLayout (u.layout.second u.props x newPosition)) := by
  obtain ⟨B, hB, hsound⟩ := hu.sound
  have hxB : x ∉ B := fun hmem => Finset.notMem_erase x A (hB hmem)
  have hchosen : u.layout.choosePage u.props (some p) newPosition = some (some p) := by
    rw [Layout.choosePage, if_neg hposition]
  obtain ⟨n, hn⟩ : ∃ n, u.fuel = n + 2 := ⟨_, rfl⟩
  rw [State.putBack, hchosen, hn]
  by_cases hcorner : u.layout.pages.length = 0 ∧ p = 1
  · right
    obtain ⟨hempty, rfl⟩ := hcorner
    refine ⟨⟨hempty, rfl⟩, ?_⟩
    show within _ (u.layout.addItemToPage u.props Layout.removePage (n + 2) x (some 1) newPosition) = _
    rw [Layout.addItemToPage_second Layout.removePage hsound hempty hxB]
    rfl
  · left
    obtain ⟨l, hl⟩ := Layout.addItemToPage_beyond (s := u.props) (x := x) Layout.removePage hp hcorner
      newPosition (n + 1)
    refine ⟨⟨u.setLayout l, ?_⟩, hcorner⟩
    show within _ (u.layout.addItemToPage u.props Layout.removePage (n + 2) x (some p) newPosition) = _
    rw [hl]
    rfl

end

end Item

/-! ## One event -/

section Events

variable {s : State ι} {x : ι}

theorem Tidy.notMem_order (h : s.Tidy) (hx : s.layout.items x = none) : x ∉ s.order := by
  obtain ⟨A, -, hsound⟩ := h.sound
  exact fun hmem => (hsound.linked x).mpr (hsound.toHolds.mem_of_mem_order hmem) hx

def Orderly (s : State ι) (e : Event ι) : Prop :=
  Ends False (s.perform Layout.removePage e) (fun t => t.Tidy ∧ s.KeepsOrder e t) ∨
    s.perform Layout.removePage e = .error (.thrown s)

section

variable (h : s.Tidy)
include h

theorem addItem_orderly (page : Option ℕ) (index : ℤ) :
    Ends False (s.addItem Layout.removePage x page index) (fun t =>
      t.Tidy ∧ Layout.others x t.order = Layout.others x s.order) ∨
      s.addItem Layout.removePage x page index = .error (.thrown s) := by
  rw [State.addItem]
  by_cases hnew : (s.layout.items x).isSome
  · exact .inr (if_pos hnew)
  · rw [if_neg hnew]
    by_cases hrange : s.Beyond page
    · exact .inr (if_pos hrange)
    · left
      rw [if_neg hrange, if_neg h.attached]
      have hnone : s.layout.items x = none := by simpa using hnew
      obtain ⟨A, hA, hsound⟩ := h.sound
      have hxA : x ∉ A := fun hmem => (hsound.linked x).mpr hmem hnone
      obtain ⟨page', hchosen, hpage⟩ := hsound.choosePage page index fun _ p hp => by
        by_contra hlt
        exact hrange ⟨p, hp, by omega⟩
      -- a child that was lost before is a child already
      have hchild : insert x A ⊆ (s.addChild x).children.toFinset := by
        obtain ⟨cs, hcs⟩ := Option.ne_none_iff_exists'.mp h.attached
        have hadd : (s.addChild x).children = if x ∈ cs then cs else cs ++ [x] := by
          simp [children, addChild, hcs]
        have hcs' : s.children = cs := by simp [children, hcs]
        rw [hcs'] at hA
        intro y hy
        rw [hadd, List.mem_toFinset]
        rcases Finset.mem_insert.mp hy with rfl | hyA
        · split
          · next hmem => exact hmem
          · exact List.mem_append_right _ (List.mem_singleton_self y)
        · have hmem := List.mem_toFinset.mp (hA hyA)
          split
          · exact hmem
          · exact List.mem_append_left _ hmem
      have hcard := card_le_children ((Finset.subset_insert x A).trans hchild)
      rw [hchosen]
      refine (Layout.addItemToPage_order hsound h.fits hxA hpage ?_).within fun l' hl' => ?_
      · rw [fuel]
        omega
      · refine ⟨⟨?_, ⟨insert x A, hchild, hl'.1.1⟩, hl'.1.2⟩, ?_⟩
        · show s.container.map _ ≠ none
          rw [Ne, Option.map_eq_none_iff]
          exact h.attached
        · show Layout.others x (l'.order s.props) = _
          rw [hl'.2]
          exact (Layout.others_of_notMem (h.notMem_order hnone)).symm

theorem moveItem_orderly {newPage : Option ℕ} {newPosition : ℤ}
    (hthere : s.TargetThere (.moveItem x newPage newPosition)) :
    s.Orderly (.moveItem x newPage newPosition) := by
  show Ends False (s.moveItem _ _ _ _) _ ∨ s.moveItem _ _ _ _ = _
  rw [State.moveItem]
  by_cases hx : s.layout.items x = none
  · exact .inr (if_pos hx)
  · left
    rw [if_neg hx]
    obtain ⟨A, hA, hsound⟩ := h.sound
    obtain ⟨u, hout, hu⟩ := (takeOut_without hsound h.fits hx).returns id
    have hleft := pagesLeft_eq h hx hout
    rw [hout]
    have hrange : newPosition ≠ -1 → ∀ p ∈ newPage, p ≤ u.layout.pages.length := by
      intro hposition p hp
      cases hp
      rw [← hleft]
      exact hthere hx hposition
    refine (hu.putBack h hA ((hsound.linked x).mp hx) hrange).mono fun t ht => ⟨ht.1.1, ?_⟩
    show Layout.others x t.order = _
    rw [ht.2, hu.order]

theorem removeChild_orderly (hx : s.layout.items x ≠ none) :
    Ends False ((s.removeChild x).takeOut Layout.removePage x) fun t =>
      t.Tidy ∧ Layout.others x t.order = Layout.others x s.order := by
  obtain ⟨A, hA, hsound⟩ := h.sound
  refine (takeOut_without (s := s.removeChild x) hsound h.fits hx).mono fun u hu => ?_
  obtain ⟨B, hB, hsound'⟩ := hu.sound
  refine ⟨⟨?_, ⟨B, ?_, hsound'⟩, hu.fits⟩, ?_⟩
  · rw [hu.container]
    show s.container.map _ ≠ none
    rw [Ne, Option.map_eq_none_iff]
    exact h.attached
  · intro y hy
    obtain ⟨hyx, hyA⟩ := Finset.mem_erase.mp (hB hy)
    rw [children, hu.container, ← children, children_removeChild, List.mem_toFinset,
      List.mem_erase_of_ne hyx]
    exact List.mem_toFinset.mp (hA hyA)
  · rw [hu.order, Layout.others_others]
    rfl

theorem removeItem_orderly : s.Orderly (.removeItem x) := by
  show Ends False (s.removeItem _ _) _ ∨ s.removeItem _ _ = _
  rw [removeItem]
  by_cases hx : s.layout.items x = none
  · exact .inr (if_pos hx)
  · rw [if_neg hx, if_neg h.attached]
    exact .inl (removeChild_orderly h hx)

theorem destroyItem_orderly : s.Orderly (.destroyItem x) := by
  left
  show Ends False (s.destroyItem _ _) _
  rw [destroyItem]
  split
  · next hx =>
    -- an actor that is no item may have been a child all the same
    obtain ⟨A, hA, hsound⟩ := h.sound
    refine ⟨⟨?_, ⟨A, fun y hy => ?_, hsound⟩, h.fits⟩, rfl⟩
    · show s.container.map _ ≠ none
      rw [Ne, Option.map_eq_none_iff]
      exact h.attached
    · have hyx : y ≠ x := by
        rintro rfl
        exact (hsound.linked y).mpr hy hx
      rw [children_removeChild, List.mem_toFinset, List.mem_erase_of_ne hyx]
      exact List.mem_toFinset.mp (hA hy)
  · next hx => exact removeChild_orderly h hx

theorem setVisible_orderly {b : Bool} : s.Orderly (.setVisible x b) := by
  left
  show Ends False (s.setVisible _ x b) _
  rw [setVisible]
  split
  · exact ⟨h, rfl⟩
  · obtain ⟨A, hA, hsound⟩ := h.sound
    have hfuel : ({ s with props := s.props.setVisible x b } : State ι).fuel = s.fuel := rfl
    have hsame := Layout.others_order_setVisible s.props s.layout x b
    rw [onVisible, hfuel]
    split
    · next hx =>
      obtain ⟨hsound', hnotMem⟩ := hsound.setVisible_of_none (b := b) hx
      exact ⟨⟨h.attached, ⟨A, hA, hsound'⟩, fun p => (h.fits p).setVisible (hnotMem p)⟩, hsame⟩
    · next p hx =>
      have hcard := card_le_children hA
      have hhandle := hsound.handleVisible (b := b) (n := s.fuel)
        (Layout.removes_removePage (s.props.setVisible x b)) h.fits hx (by rw [fuel]; omega)
      refine (hhandle.weaken And.left).within fun l' hl' => ?_
      obtain ⟨B, hB, hsound'⟩ := hl'.sound
      refine ⟨⟨h.attached, ⟨B, hB.1.trans hA, hsound'⟩, hl'.fits⟩, ?_⟩
      show Layout.others x (l'.order (s.props.setVisible x b)) = _
      rw [hl'.order, hsame]
      rfl

theorem setGridMode_orderly {mode : Option ({n : ℕ // 1 ≤ n} × {n : ℕ // 1 ≤ n})} :
    s.Orderly (.setGridMode mode) := by
  left
  obtain ⟨A, hA, hsound⟩ := h.sound
  have hsound' : s.layout.Sound (s.props.setMode mode) A := by
    cases mode with
    | none => exact hsound
    | some m => exact ⟨hsound.toHolds, hsound.cached⟩
  have hsame : s.layout.order (s.props.setMode mode) = s.layout.order s.props := by
    cases mode <;> rfl
  have hcard := card_le_children hA
  refine (Layout.updatePages_order hsound' ?_).within fun l' hl' => ?_
  · show _ ≤ s.fuel
    rw [fuel]
    omega
  · exact ⟨⟨h.attached, ⟨A, hA, hl'.1.1⟩, hl'.1.2⟩, hl'.2.trans hsame⟩

/-- **One event.** It returns and keeps the order of the other items, or throws and changes
nothing. -/
theorem perform_tidy (e : Event ι) (hthere : s.TargetThere e) : s.Orderly e := by
  cases e with
  | addItem x page index => exact addItem_orderly h page index
  | appendItem x => exact addItem_orderly h none (-1)
  | moveItem x newPage newPosition => exact moveItem_orderly h hthere
  | removeItem x => exact removeItem_orderly h
  | destroyItem x => exact destroyItem_orderly h
  | setVisible x b => exact setVisible_orderly h
  | setGridMode mode => exact setGridMode_orderly h

theorem moveItem_beyond_order {t : State ι} {p : ℕ} {newPosition : ℤ}
    (hx : s.layout.items x ≠ none) (hposition : newPosition ≠ -1) (hp : s.pagesLeft x < p)
    (ht : s.moveItem Layout.removePage x (some p) newPosition = .ok t) :
    Layout.others x t.order = Layout.others x s.order := by
  obtain ⟨A, hA, hsound⟩ := h.sound
  obtain ⟨u, hout, hu⟩ := (takeOut_without hsound h.fits hx).returns id
  rw [pagesLeft_eq h hx hout] at hp
  rw [State.moveItem, if_neg hx, hout] at ht
  change u.putBack _ x (some p) newPosition = .ok t at ht
  rcases hu.putBack_beyond hposition hp with ⟨⟨t', ht'⟩, -⟩ | ⟨⟨hempty, -⟩, hsecond⟩
  · rw [ht'] at ht
    cases ht
  · rw [hsecond] at ht
    cases ht
    obtain ⟨B, -, hsound'⟩ := hu.sound
    have hnone : ∀ y, y ∉ B := hsound'.toHolds.notMem_of_empty hempty
    have hnil : u.order = [] := by
      show u.layout.order u.props = []
      rw [Layout.order, List.length_eq_zero_iff.mp hempty, List.flatMap_nil]
    rw [← hu.order, hnil]
    refine List.filter_eq_nil_iff.mpr fun y hy => ?_
    have hmem := (hsound'.second hempty (hnone x) newPosition).toHolds.mem_of_mem_order hy
    have hyx : y = x := (Finset.mem_insert.mp hmem).resolve_right (hnone y)
    simp [hyx]

end

end Events

/-! ## Runs -/

theorem tidy_step {s t : State ι} {e : Event ι} (h : s.Tidy) (hthere : s.TargetThere e)
    (hstep : step s e = some t) : t.Tidy := by
  rw [step] at hstep
  rcases perform_tidy h e hthere with hends | hthrown
  · obtain ⟨t', ht', htidy, -⟩ := hends.returns id
    rw [ht'] at hstep
    cases hstep
    exact htidy
  · rw [hthrown] at hstep
    cases hstep
    exact h

theorem tidy_run {props : Props ι} {s : State ι}
    (hreach : Runs.Reach step TargetThere (new props (some [])) s) : s.Tidy :=
  hreach.invariant (tidy_new props) fun _ _ _ h hthere hstep => tidy_step h hthere hstep

/-- **The others keep their order.** In every state of a run that moves items only to pages that are
there without them, every event that returns. -/
theorem order_run {props : Props ι} {s t : State ι} {e : Event ι}
    (hreach : Runs.Reach step TargetThere (new props (some [])) s)
    (ht : s.perform Layout.removePage e = .ok t) : s.KeepsOrder e t := by
  have htidy := tidy_run hreach
  by_cases hthere : s.TargetThere e
  · rcases perform_tidy htidy e hthere with hends | hthrown
    · rw [ht] at hends
      exact hends.2
    · rw [ht] at hthrown
      cases hthrown
  · -- the event is not restricted, only those before it are
    match e with
    | .moveItem x (some p) newPosition =>
      have hthere' : s.layout.items x ≠ none ∧ newPosition ≠ -1 ∧ s.pagesLeft x < p := by
        simpa [TargetThere] using hthere
      exact moveItem_beyond_order htidy hthere'.1 hthere'.2.1 hthere'.2.2 ht
    | .moveItem _ none _ | .addItem _ _ _ | .appendItem _ | .removeItem _ | .destroyItem _
    | .setVisible _ _ | .setGridMode _ => exact absurd trivial hthere

/-- The first of five items is removed, on pages that are always full: two pages pass one on. -/
theorem order_run_five : ∃ s t : State ℕ, s.perform Layout.removePage (.removeItem 0) = .ok t ∧
      s.KeepsOrder (.removeItem 0) t ∧ s.order = [0, 1, 2, 3, 4] ∧ t.order = [1, 2, 3, 4] := by
  have hallowed : Runs.Allowed step TargetThere
      (new { twoColumns with allowIncompletePages := false } (some []))
      [.appendItem 0, .appendItem 1, .appendItem 2, .appendItem 3, .appendItem 4] := by
    decide +kernel
  have hrun : ∃ s ∈ Runs.run step (new { twoColumns with allowIncompletePages := false } (some []))
      [.appendItem 0, .appendItem 1, .appendItem 2, .appendItem 3, .appendItem 4],
      s.order = [0, 1, 2, 3, 4] ∧ ∃ t ∈ (s.perform Layout.removePage (.removeItem 0)).toOption,
        t.order = [1, 2, 3, 4] := by
    decide +kernel
  obtain ⟨s, hs, hbefore, t, ht, hafter⟩ := hrun
  have hok : s.perform Layout.removePage (.removeItem 0) = .ok t := by
    revert ht
    cases s.perform Layout.removePage (.removeItem 0) with
    | ok t' => exact fun ht => congrArg Except.ok (Option.some.inj ht)
    | error e => exact nofun
  exact ⟨s, t, hok, order_run (Runs.Reach.of_run _ hallowed hs) hok, hbefore, hafter⟩

/-- Item 2 is moved to page 2 of two and is gone from page 1 then, so that throws; later items fill
page 2, and to remove item 2 takes the last one of them. -/
theorem not_order_phantom : ¬ ∀ (props : Props ℕ) (s t : State ℕ) (e : Event ℕ),
      Runs.Reachable step (new props (some [])) s → s.perform Layout.removePage e = .ok t →
      s.KeepsOrder e t := by
  intro h
  have hrun : ∃ s ∈ Runs.run step (new twoColumns (some []))
      [.appendItem 0, .appendItem 1, .appendItem 2, .moveItem 2 (some 2) 0, .appendItem 3,
        .appendItem 4, .appendItem 5],
      ∃ t ∈ (s.perform Layout.removePage (.removeItem 2)).toOption,
        ¬ s.KeepsOrder (.removeItem 2) t := by
    decide +kernel
  obtain ⟨s, hs, t, ht, hnot⟩ := hrun
  refine hnot (h twoColumns s t (.removeItem 2) (Runs.Reachable.of_run _ hs) ?_)
  revert ht
  cases s.perform Layout.removePage (.removeItem 2) with
  | ok t' => exact fun ht => congrArg Except.ok (Option.some.inj ht)
  | error e => exact nofun

end State

end IconGrid
