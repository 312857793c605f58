import GnomeShellMobile.IconGrid.Partition

/-!
# IconGrid — the place of an item

`getItemPosition` and `getItemAt` of `IconGridLayout`, which the drag and drop of the app display and
the saved page layout go by. A number is -1 where there is nothing, as in the source.

* **`places_run`**: along every run that keeps the partition, the two are inverse to each other.
-/

namespace IconGrid

open Attempts

variable {ι : Type} [DecidableEq ι]

/-! ## The model -/

/-- `indexOf`. -/
def indexOf (xs : List ι) (x : ι) : ℤ := if x ∈ xs then xs.idxOf x else -1

namespace Layout

def getItemPosition (l : Layout ι) (x : ι) : Attempt (Layout ι) (ℤ × ℤ) :=
  match l.items x with
  | none => .ok (-1, -1)
  | some p => do
    let visibleItems ← l.visibleChildren p
    .ok (p, indexOf visibleItems x)

def getItemAt (l : Layout ι) (page position : ℤ) : Attempt (Layout ι) (Option ι) :=
  if page < 0 ∨ l.pages.length ≤ page then .ok none
  else do
    let visibleItems ← l.visibleChildren page.toNat
    if position < 0 ∨ visibleItems.length ≤ position then .ok none
    else .ok visibleItems[position.toNat]?

end Layout

/-! ## Lists -/

theorem indexOf_nonneg_iff {xs : List ι} {x : ι} : 0 ≤ indexOf xs x ↔ x ∈ xs := by
  unfold indexOf
  split
  · next hmem => exact iff_of_true (by omega) hmem
  · next hmem => exact iff_of_false (by omega) hmem

theorem indexOf_eq_iff {xs : List ι} {x : ι} (hnodup : xs.Nodup) (i : ℕ) :
    indexOf xs x = i ↔ xs[i]? = some x := by
  constructor
  · intro h
    have hmem : x ∈ xs := indexOf_nonneg_iff.mp (by omega)
    rw [indexOf, if_pos hmem] at h
    rw [← Int.ofNat.inj h]
    exact List.getElem?_idxOf hmem
  · intro h
    obtain ⟨hlt, hget⟩ := List.getElem?_eq_some_iff.mp h
    rw [indexOf, if_pos (List.mem_of_getElem? h), ← hget, hnodup.idxOf_getElem i hlt]

/-! ## The places of a state -/

namespace State

variable {t : State ι} {x : ι}

omit [DecidableEq ι] in
theorem Partition.visibleChildren_eq (h : t.Partition) {p : ℕ} (hp : p < t.layout.pages.length) :
    t.layout.visibleChildren p = .ok (t.layout.shownAt t.props p) := by
  have hget := List.getElem?_eq_getElem hp
  rw [Layout.visibleChildren, hget, Option.bind_some, h.shown p _ hget, Layout.shownAt,
    Layout.childrenAt_of_getElem? hget]

omit [DecidableEq ι] in
theorem Partition.page_lt (h : t.Partition) {p : ℕ} (hx : t.layout.items x = some p) :
    p < t.layout.pages.length :=
  Layout.lt_length_of_mem ((h.onePage x p).mpr hx)

omit [DecidableEq ι] in
theorem Partition.mem_shownAt_iff (h : t.Partition) {p : ℕ} (hx : t.layout.items x = some p) :
    x ∈ t.layout.shownAt t.props p ↔ t.props.visible x = true := by
  rw [Layout.shownAt, List.mem_filter]
  exact and_iff_right ((h.onePage x p).mpr hx)

theorem Partition.getItemPosition_eq (h : t.Partition) {p : ℕ} (hx : t.layout.items x = some p) :
    t.layout.getItemPosition x = .ok ((p : ℤ), indexOf (t.layout.shownAt t.props p) x) := by
  rw [Layout.getItemPosition, hx]
  show (do let visibleItems ← t.layout.visibleChildren p; _) = _
  rw [h.visibleChildren_eq (h.page_lt hx)]
  rfl

omit [DecidableEq ι] in
theorem Partition.getItemAt_eq (h : t.Partition) (p i : ℕ) :
    t.layout.getItemAt p i = .ok ((t.layout.shownAt t.props p)[i]?) := by
  unfold Layout.getItemAt
  split
  · next hout =>
    -- beyond the last page nothing is shown
    have hnone : t.layout.childrenAt p = [] := Layout.childrenAt_of_le (by omega)
    rw [Layout.shownAt, hnone]
    rfl
  · next hin =>
    rw [Int.toNat_natCast, h.visibleChildren_eq (by omega)]
    show (if _ then _ else _) = _
    split
    · next hbeyond => rw [List.getElem?_eq_none (by omega)]
    · rw [Int.toNat_natCast]

/-- **An item is where it is found.** -/
theorem Partition.position_iff (h : t.Partition) (x : ι) (p i : ℕ) :
    t.layout.getItemPosition x = .ok ((p : ℤ), (i : ℤ)) ↔ t.layout.getItemAt p i = .ok (some x) := by
  have hnodup : (t.layout.shownAt t.props p).Nodup := (h.once p).filter _
  rw [h.getItemAt_eq p i]
  cases hx : t.layout.items x with
  | none =>
    rw [Layout.getItemPosition, hx]
    refine iff_of_false (fun heq => ?_) fun heq => ?_
    · have hpage := congrArg Prod.fst (Except.ok.inj heq)
      dsimp only at hpage
      omega
    · have hmem := List.mem_of_mem_filter (List.mem_of_getElem? (Except.ok.inj heq))
      rw [h.onePage, hx] at hmem
      cases hmem
  | some q =>
    rw [h.getItemPosition_eq hx]
    constructor
    · intro heq
      obtain ⟨hpage, hindex⟩ := Prod.mk.inj (Except.ok.inj heq)
      obtain rfl := Int.ofNat.inj hpage
      exact congrArg _ ((indexOf_eq_iff hnodup i).mp hindex)
    · intro heq
      have hget := Except.ok.inj heq
      have hmem := List.mem_of_mem_filter (List.mem_of_getElem? hget)
      obtain rfl := Option.some.inj (hx.symm.trans ((h.onePage x p).mp hmem))
      rw [(indexOf_eq_iff hnodup i).mpr hget]

/-- **Each visible item has a place, and each place an item.** A hidden one has a page only. -/
theorem places_run {props : Props ι} {t : State ι}
    (hreach : Runs.Reach step Kept (new props (some [])) t) :
    (∀ x, ∃ p i, t.layout.getItemPosition x = .ok (p, i) ∧ (0 ≤ p ↔ x ∈ t.children) ∧
      (0 ≤ i ↔ x ∈ t.children ∧ t.props.visible x = true)) ∧
    ∀ (x : ι) (p i : ℕ),
      t.layout.getItemPosition x = .ok ((p : ℤ), (i : ℤ)) ↔ t.layout.getItemAt p i = .ok (some x) := by
  have h : t.Partition :=
    (hreach.invariant (inv_new props) fun _ _ _ h hkept hstep => inv_step h hkept hstep).partition
  refine ⟨fun x => ?_, h.position_iff⟩
  cases hx : t.layout.items x with
  | none =>
    have hchild : x ∉ t.children := fun hmem => by
      obtain ⟨p, hp⟩ := (h.recorded x).mp hmem
      rw [hx] at hp
      cases hp
    refine ⟨-1, -1, by rw [Layout.getItemPosition, hx], ?_, ?_⟩
    · exact iff_of_false (by decide) hchild
    · exact iff_of_false (by decide) fun hboth => hchild hboth.1
  | some p =>
    have hchild : x ∈ t.children := (h.recorded x).mpr ⟨p, hx⟩
    refine ⟨p, _, h.getItemPosition_eq hx, iff_of_true (by omega) hchild, ?_⟩
    rw [indexOf_nonneg_iff, h.mem_shownAt_iff hx, and_iff_right hchild]

theorem places_run_three : ∃ t : State ℕ, Runs.run step (new twoColumns (some []))
    [.appendItem 0, .appendItem 1, .appendItem 2, .moveItem 2 (some 0) 0] = some t ∧
    ∃ p i, t.layout.getItemPosition 2 = .ok (p, i) ∧ 0 ≤ p ∧ 0 ≤ i := by
  have hallowed : Runs.Allowed step Kept (new twoColumns (some []))
      [.appendItem 0, .appendItem 1, .appendItem 2, .moveItem 2 (some 0) 0] := by
    decide +kernel
  have hshown : ∃ t ∈ Runs.run step (new twoColumns (some []))
      [.appendItem 0, .appendItem 1, .appendItem 2, .moveItem 2 (some 0) 0],
      2 ∈ t.children ∧ t.props.visible 2 = true := by
    decide +kernel
  obtain ⟨t, ht, hmem, hvisible⟩ := hshown
  obtain ⟨p, i, hposition, hpage, hindex⟩ := (places_run (Runs.Reach.of_run _ hallowed ht)).1 2
  exact ⟨t, ht, p, i, hposition, hpage.mpr hmem, hindex.mpr ⟨hmem, hvisible⟩⟩

end State

end IconGrid
