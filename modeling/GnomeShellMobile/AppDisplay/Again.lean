import GnomeShellMobile.AppDisplay.Loading

/-!
# AppDisplay — loading the applications twice

No application is shown in a folder and at the top level, whatever the folders are. Whether a second pass
of `_loadApps` finds everything in place depends on the duplicates that the first one has skipped: it
takes out the ones that are left. And `getAllItems` takes the placeholders out of the array of the view.

* **`Fits`**, **`Apart`**: the condition, for one folder and for all.
* **`openAgain`**: what the second pass finds of a folder.
* **`again_iff`**: the two passes, folder by folder.
* **`loadsWell_iff`**: the result.
-/

namespace AppDisplay

open IconGrid

namespace Loads

variable {α φ : Type} [DecidableEq α] [DecidableEq φ]
variable {sys : System α φ} {f : φ} {c : Pass α φ} {d : Folders α φ} {l : List φ} {v : Items α}

/-! ## `getAllItems` -/

def Items.Undragged (v : Items α) : Prop := v.placeholders = [] ∨ v.orderedItems = []
deriving Decidable

theorem length_foldl_spliceOut (ps xs : List α) :
    (ps.foldl Layout.spliceOut xs).length = xs.length - ps.length := by
  induction ps generalizing xs with
  | nil => rfl
  | cons p ps ih =>
    have hone : (Layout.spliceOut xs p).length = xs.length - 1 := by
      unfold Layout.spliceOut
      split
      · next h => exact List.length_erase_of_mem h
      · exact List.length_dropLast
    rw [List.foldl_cons, ih, hone, List.length_cons]
    omega

theorem Items.Undragged.getAllItems_eq (h : v.Undragged) : v.getAllItems = v := by
  have hitems : v.placeholders.foldl Layout.spliceOut v.orderedItems = v.orderedItems := by
    rcases h with h | h
    · rw [h]
      rfl
    · rw [h]
      refine List.length_eq_zero_iff.mp ?_
      rw [length_foldl_spliceOut]
      exact Nat.zero_sub _
  rw [getAllItems, hitems]

theorem Items.undragged_iff : v.Undragged ↔ v.getAllItems.orderedItems = v.orderedItems := by
  refine ⟨fun h => by rw [h.getAllItems_eq], fun h => ?_⟩
  have hlength : v.orderedItems.length - v.placeholders.length = v.orderedItems.length := by
    rw [← length_foldl_spliceOut]
    exact congrArg List.length h
  cases hp : v.placeholders with
  | nil => exact .inl hp
  | cons p ps =>
    rw [hp, List.length_cons] at hlength
    exact .inr (List.length_eq_zero_iff.mp (by omega))

/-! ## One folder -/

variable (sys)

def baseItems (d : Folders α φ) (f : φ) : List α :=
  (openFolder sys d f).orderedItems

/-- No two items in a row of the folder are in an earlier one, or the folder has nothing but such items,
three at most, and is deleted or has no icon yet. -/
def Fits (d : Folders α φ) (inside : List α) (f : φ) : Prop :=
  Separate inside (baseItems sys d f) ∨
    (∀ a ∈ baseItems sys d f, a ∈ inside) ∧ (baseItems sys d f).length ≤ 3 ∧
      (sys.isDefaultFolder f = false ∨ (d.views f).isNone = true)
deriving Decidable

def insideAfter (d : Folders α φ) (inside : List α) (f : φ) : List α :=
  if ((baseItems sys d f).filter (· ∉ inside)).length ≤ 1 then inside
  else inside ++ (baseItems sys d f).filter (· ∉ inside)

variable {sys}

def Apart (sys : System α φ) (d : Folders α φ) : List α → List φ → Prop
  | _, [] => True
  | inside, f :: l => Fits sys d inside f ∧ Apart sys d (insideAfter sys d inside f) l

instance Apart.decidable (sys : System α φ) (d : Folders α φ) :
    (inside : List α) → (l : List φ) → Decidable (Apart sys d inside l)
  | _, [] => .isTrue trivial
  | inside, f :: l =>
    have := Apart.decidable sys d (insideAfter sys d inside f) l
    inferInstanceAs (Decidable (_ ∧ _))

def left (sys : System α φ) (c : Pass α φ) (f : φ) : List α :=
  skip c.inside (baseItems sys c.folders f)

def Items.withItems (v : Items α) (items : List α) : Items α := { v with orderedItems := items }

structure Usable (v : Items α) : Prop where
  undragged : v.Undragged
  nodup : v.orderedItems.Nodup

theorem cleanFolder_eq (inside : List α) (f : φ) (s : FolderSettings α φ) (h : Usable v) :
    ∃ t, cleanFolder inside f s v = (t, v.withItems (skip inside v.orderedItems)) ∧
      Written inside v.orderedItems f s t (skip inside v.orderedItems) := by
  obtain ⟨t, heq, hwritten⟩ := removeDuplicates_eq inside f s h.nodup
  refine ⟨t, ?_, hwritten⟩
  have hleft : (v.withItems (skip inside v.orderedItems)).Undragged := by
    rcases h.undragged with hp | hp
    · exact .inl hp
    · refine .inr ?_
      show skip inside v.orderedItems = []
      rw [hp, skip]
  rw [cleanFolder, h.undragged.getAllItems_eq, heq]
  exact congrArg _ hleft.getAllItems_eq

theorem loadFolder_eq (h : Usable (openFolder sys c.folders f)) : ∃ t, loadFolder sys c f =
        endFolder sys c f (t, (openFolder sys c.folders f).withItems (left sys c f)) ∧
      Written c.inside (baseItems sys c.folders f) f c.folders.settings t (left sys c f) := by
  obtain ⟨t, heq, hwritten⟩ := cleanFolder_eq c.inside f c.folders.settings h
  exact ⟨t, by rw [loadFolder, heq]; rfl, hwritten⟩

omit [DecidableEq α] [DecidableEq φ] in
theorem Written.others {inside all items : List α} {f g : φ} {s t : FolderSettings α φ}
    (h : Written inside all f s t items) (hg : g ≠ f) : SameKeys s t g := by
  rcases h with ⟨rfl, -⟩ | ⟨first, h⟩
  · exact .refl t g
  · exact h.others g hg

omit [DecidableEq α] [DecidableEq φ] in
theorem Written.folderChildren {inside all items : List α} {s t : FolderSettings α φ}
    (h : Written inside all f s t items) : t.folderChildren = s.folderChildren := by
  rcases h with ⟨rfl, -⟩ | ⟨first, h⟩
  · rfl
  · exact h.folderChildren

omit [DecidableEq α] in
theorem deleteFolder_others (sys : System α φ) (s : FolderSettings α φ) {f g : φ} (hg : g ≠ f) :
    SameKeys s (Display.deleteFolder sys s f) g := by
  unfold Display.deleteFolder
  split
  · exact .refl s g
  · exact ⟨Function.update_of_ne hg _ _, Function.update_of_ne hg _ _, Function.update_of_ne hg _ _⟩

omit [DecidableEq α] in
theorem deleteFolder_default (h : sys.isDefaultFolder f = true)
    (s : FolderSettings α φ) : Display.deleteFolder sys s f = s := by
  rw [Display.deleteFolder, if_pos h]

omit [DecidableEq α] in
theorem storeView_others (d : Folders α φ) {f g : φ} (hg : g ≠ f) (v : Items α) :
    storeView d f v g = d.views g := by
  unfold storeView
  split
  · exact Function.update_of_ne hg _ _
  · rfl

omit [DecidableEq α] in
theorem storeView_none (h : d.views f = none) (v : Items α) : storeView d f v = d.views := by
  rw [storeView, h]
  rfl

omit [DecidableEq α] in
theorem storeView_some {u : Items α} (h : d.views f = some u)
    (v : Items α) : storeView d f v = Function.update d.views f (some v) := by
  rw [storeView, h]
  rfl

def IsDeleted (sys : System α φ) (c : Pass α φ) (f : φ) : Prop :=
  (left sys c f).length ≤ 1 ∧ sys.isDefaultFolder f = false
deriving Decidable

structure Turned (sys : System α φ) (c c' : Pass α φ) (f : φ) : Prop where
  keys : ∀ g, g ≠ f → SameKeys c.folders.settings c'.folders.settings g
  others : ∀ g, g ≠ f → c'.folders.views g = c.folders.views g
  view : c'.folders.views =
    storeView c.folders f ((openFolder sys c.folders f).withItems (left sys c f))
  folderChildren : c'.folders.settings.folderChildren =
    if IsDeleted sys c f then Layout.spliceOut c.folders.settings.folderChildren f
    else c.folders.settings.folderChildren
  written : ¬ IsDeleted sys c f →
    Written c.inside (baseItems sys c.folders f) f c.folders.settings c'.folders.settings
      (left sys c f)
  inside : c'.inside = if (left sys c f).length ≤ 1 then c.inside else c.inside ++ left sys c f
  icons : c'.icons = if (left sys c f).length ≤ 1 then c.icons else c.icons ++ [(f, left sys c f)]

theorem loadFolder_turned
    (h : Usable (openFolder sys c.folders f)) : Turned sys c (loadFolder sys c f) f := by
  obtain ⟨t, heq, hwritten⟩ := loadFolder_eq h
  rw [heq, endFolder]
  generalize hr : (t, (openFolder sys c.folders f).withItems (left sys c f)) = r
  have hitems : r.2.orderedItems = left sys c f := hr ▸ rfl
  by_cases hlength : (left sys c f).length ≤ 1
  · rw [if_pos (hitems ▸ hlength), ← hr]
    refine ⟨fun g hg => (hwritten.others hg).trans (deleteFolder_others sys t hg),
      fun g hg => storeView_others _ hg _, rfl, ?_, fun hnot => ?_, (if_pos hlength).symm,
      (if_pos hlength).symm⟩
    · show (Display.deleteFolder sys t f).folderChildren = _
      cases hdefault : sys.isDefaultFolder f with
      | true =>
        rw [deleteFolder_default hdefault, hwritten.folderChildren,
          if_neg fun hdel => nomatch hdel.2.symm.trans hdefault]
      | false =>
        have hdel : IsDeleted sys c f := ⟨hlength, hdefault⟩
        rw [if_pos hdel, Display.deleteFolder, hdefault, ← hwritten.folderChildren]
        rfl
    · have hdefault : sys.isDefaultFolder f = true := by
        cases hdefault : sys.isDefaultFolder f with
        | true => rfl
        | false => exact absurd ⟨hlength, hdefault⟩ hnot
      show Written _ _ _ _ (Display.deleteFolder sys t f) _
      rw [deleteFolder_default hdefault]
      exact hwritten
  · rw [if_neg (hitems ▸ hlength), ← hr]
    refine ⟨fun g hg => hwritten.others hg, fun g hg => storeView_others _ hg _, rfl, ?_,
      fun _ => hwritten, (if_neg hlength).symm, (if_neg hlength).symm⟩
    rw [if_neg fun hdel => hlength hdel.1]
    exact hwritten.folderChildren

/-! ## The folders of a pass -/

def Untouched (d : Folders α φ) (c : Pass α φ) (l : List φ) : Prop :=
  ∀ f ∈ l, SameKeys d.settings c.folders.settings f ∧ c.folders.views f = d.views f

def UsableOn (d : Folders α φ) (l : List φ) : Prop := ∀ f ∈ l, ∀ v, d.views f = some v → Usable v

omit [DecidableEq φ] in
theorem openFolder_congr (sys : System α φ) {d d' : Folders α φ}
    (hkeys : SameKeys d.settings d'.settings f) (hviews : d'.views f = d.views f) :
    openFolder sys d' f = openFolder sys d f := by
  rw [openFolder, openFolder, hviews, hkeys.loadApps]

omit [DecidableEq φ] in
theorem openFolder_usable (sys : System α φ)
    (h : ∀ v, d.views f = some v → Usable v) : Usable (openFolder sys d f) := by
  rw [openFolder]
  cases hv : d.views f with
  | none => exact ⟨.inl rfl, FolderView.nodup_loadApps⟩
  | some v => exact h v hv

theorem Untouched.tail {c c' : Pass α φ}
    (h : Untouched d c (f :: l)) (hturned : Turned sys c c' f) (hf : f ∉ l) : Untouched d c' l := by
  intro g hg
  have hne : g ≠ f := fun heq => hf (heq ▸ hg)
  obtain ⟨hkeys, hviews⟩ := h g (List.mem_cons_of_mem f hg)
  exact ⟨hkeys.trans (hturned.keys g hne), (hturned.others g hne).trans hviews⟩

/-- What the turns for `l` come to, besides the folders of `l`. -/
structure Passed (c c' : Pass α φ) (l : List φ) : Prop where
  keys : ∀ g, g ∉ l → SameKeys c.folders.settings c'.folders.settings g
  views : ∀ g, g ∉ l → c'.folders.views g = c.folders.views g
  icons : ∃ rest, c'.icons = c.icons ++ rest ∧ ∀ p ∈ rest, p.1 ∈ l

omit [DecidableEq α] [DecidableEq φ] in
theorem Passed.refl (c : Pass α φ) : Passed c c [] :=
  ⟨fun g _ => .refl _ g, fun _ _ => rfl, [], by simp, by simp⟩

theorem Turned.passed {c c₁ c' : Pass α φ}
    (hturned : Turned sys c c₁ f) (h : Passed c₁ c' l) : Passed c c' (f :: l) := by
  refine ⟨fun g hg => ?_, fun g hg => ?_, ?_⟩
  · rw [List.mem_cons, not_or] at hg
    exact (hturned.keys g hg.1).trans (h.keys g hg.2)
  · rw [List.mem_cons, not_or] at hg
    exact (h.views g hg.2).trans (hturned.others g hg.1)
  · obtain ⟨rest, hrest, hin⟩ := h.icons
    have hkeys : ∀ p ∈ rest, p.1 ∈ f :: l := fun p hp => List.mem_cons_of_mem f (hin p hp)
    rw [hrest, hturned.icons]
    split
    · exact ⟨rest, rfl, hkeys⟩
    · refine ⟨(f, left sys c f) :: rest, by simp, fun p hp => ?_⟩
      rcases List.mem_cons.mp hp with rfl | hp
      · exact List.mem_cons_self
      · exact hkeys p hp

/-- Induction on the folders. -/
theorem foldl_passed (hd : Untouched d c l) (husable : UsableOn d l) (hl : l.Nodup) :
    Passed c (l.foldl (loadFolder sys) c) l := by
  induction l generalizing c with
  | nil => exact .refl c
  | cons f l ih =>
    rw [List.nodup_cons] at hl
    have hf := hd f List.mem_cons_self
    have hopen : Usable (openFolder sys c.folders f) :=
      openFolder_usable sys fun v hv => husable f List.mem_cons_self v (hf.2.symm.trans hv)
    have hturned := loadFolder_turned hopen
    exact hturned.passed (ih (hd.tail hturned hl.1)
      (fun g hg => husable g (List.mem_cons_of_mem f hg)) hl.2)

def survivors (sys : System α φ) : Pass α φ → List φ → List φ
  | _, [] => []
  | c, f :: l =>
    if IsDeleted sys c f then survivors sys (loadFolder sys c f) l
    else f :: survivors sys (loadFolder sys c f) l

theorem survivors_subset (c : Pass α φ) (l : List φ) : ∀ f ∈ survivors sys c l, f ∈ l := by
  induction l generalizing c with
  | nil => exact fun f hf => hf
  | cons g l ih =>
    intro f hf
    rw [survivors] at hf
    split at hf
    · exact List.mem_cons_of_mem g (ih _ f hf)
    · rcases List.mem_cons.mp hf with rfl | hf
      · exact List.mem_cons_self
      · exact List.mem_cons_of_mem g (ih _ f hf)

theorem survivors_nodup (c : Pass α φ) (hl : l.Nodup) : (survivors sys c l).Nodup := by
  induction l generalizing c with
  | nil => exact hl
  | cons f l ih =>
    rw [List.nodup_cons] at hl
    rw [survivors]
    split
    · exact ih _ hl.2
    · exact List.nodup_cons.mpr ⟨fun hin => hl.1 (survivors_subset _ l f hin), ih _ hl.2⟩

/-- The folders that the settings have after a pass. Induction on the folders. -/
theorem folderChildren_foldl {pre l : List φ} (hd : Untouched d c l) (husable : UsableOn d l)
    (hl : (pre ++ l).Nodup) (hchildren : c.folders.settings.folderChildren = pre ++ l) :
    (l.foldl (loadFolder sys) c).folders.settings.folderChildren = pre ++ survivors sys c l := by
  induction l generalizing c pre with
  | nil => exact hchildren
  | cons f l ih =>
    have hnodup := (List.nodup_append.mp hl).2.1
    rw [List.nodup_cons] at hnodup
    have hf := hd f List.mem_cons_self
    have hopen : Usable (openFolder sys c.folders f) :=
      openFolder_usable sys fun v hv => husable f List.mem_cons_self v (hf.2.symm.trans hv)
    have hturned := loadFolder_turned hopen
    have htail := hd.tail hturned hnodup.1
    have husable' : UsableOn d l := fun g hg => husable g (List.mem_cons_of_mem f hg)
    rw [List.foldl_cons, survivors]
    split
    · next hdel =>
      refine ih htail husable' (hl.sublist (List.Sublist.append_left (List.sublist_cons_self f l) pre)) ?_
      have hout : f ∉ pre := fun hin =>
        (List.nodup_append.mp hl).2.2 f hin f List.mem_cons_self rfl
      rw [hturned.folderChildren, if_pos hdel, hchildren, Layout.spliceOut,
        if_pos (List.mem_append_right pre List.mem_cons_self), List.erase_append_right _ hout,
        List.erase_cons_head]
    · next hdel =>
      have hsplit : ∀ r, pre ++ f :: r = (pre ++ [f]) ++ r := fun r => by simp
      rw [hsplit] at hl hchildren ⊢
      refine ih htail husable' hl ?_
      rw [hturned.folderChildren, if_neg hdel]
      exact hchildren

/-! ## The second pass -/

omit [DecidableEq φ] in
theorem Usable.withLeft (h : Usable v) (inside : List α) :
    Usable (v.withItems (skip inside v.orderedItems)) := by
  refine ⟨?_, h.nodup.sublist (skip_sublist inside v.orderedItems)⟩
  rcases h.undragged with hp | hp
  · exact .inl hp
  · refine .inr ?_
    show skip inside v.orderedItems = []
    rw [hp, skip]

/-- What the second pass, at `e`, finds of a folder that the first one, from `c` to `c₁`, has not
deleted: what was left, or for a view that is created again also the first item that was removed. -/
structure OpensAgain (sys : System α φ) (c e : Pass α φ) (f : φ) : Prop where
  usable : Usable (openFolder sys e.folders f)
  items : baseItems sys e.folders f = left sys c f ∨
    ∃ first ∈ c.inside, c.folders.views f = none ∧
      baseItems sys e.folders f = left sys c f ++ [first]
  view : e.folders.views f =
    (c.folders.views f).map fun _ => (openFolder sys e.folders f).withItems (left sys c f)

theorem openAgain {c c₁ e : Pass α φ}
    (husable : Usable (openFolder sys c.folders f)) (hturned : Turned sys c c₁ f)
    (hdel : ¬ IsDeleted sys c f) (hview : e.folders.views f = c₁.folders.views f)
    (hkeys : SameKeys c₁.folders.settings e.folders.settings f) : OpensAgain sys c e f := by
  rw [hturned.view] at hview
  cases hv : c.folders.views f with
  | some v =>
    have hopen : openFolder sys c.folders f = v := by rw [openFolder, hv]; rfl
    rw [storeView_some hv, Function.update_self, hopen] at hview
    rw [hopen] at husable
    have hleft : left sys c f = skip c.inside v.orderedItems := by rw [left, baseItems, hopen]
    have hagain : openFolder sys e.folders f = v.withItems (left sys c f) := by
      rw [openFolder, hview]
      rfl
    refine ⟨?_, .inl ?_, ?_⟩
    · rw [hagain, hleft]
      exact husable.withLeft c.inside
    · rw [baseItems, hagain]
      rfl
    · rw [hview, hv, hagain]
      rfl
  | none =>
    rw [storeView_none hv, hv] at hview
    have hopen : openFolder sys c.folders f =
        ⟨FolderView.loadApps sys c.folders.settings (Display.loadAppInfos sys) f, []⟩ := by
      rw [openFolder, hv]
      rfl
    have hagain : openFolder sys e.folders f =
        ⟨FolderView.loadApps sys c₁.folders.settings (Display.loadAppInfos sys) f, []⟩ := by
      rw [openFolder, hview, hkeys.loadApps]
      rfl
    have hbase : baseItems sys e.folders f =
        FolderView.loadApps sys c₁.folders.settings (Display.loadAppInfos sys) f := by
      rw [baseItems, hagain]
    have hbaseFirst : baseItems sys c.folders f =
        FolderView.loadApps sys c.folders.settings (Display.loadAppInfos sys) f := by
      rw [baseItems, hopen]
    refine ⟨?_, ?_, by rw [hview, hv]; rfl⟩
    · rw [hagain]
      exact ⟨.inl rfl, FolderView.nodup_loadApps⟩
    · rw [hbase]
      have hwritten := hturned.written hdel
      rw [hbaseFirst] at hwritten
      rcases hwritten with ⟨hsettings, hitems⟩ | ⟨first, hsaved⟩
      · rw [hsettings, hitems]
        exact .inl rfl
      · have hsub : (left sys c f).Sublist
            (FolderView.loadApps sys c.folders.settings (Display.loadAppInfos sys) f) := by
          rw [left, hbaseFirst]
          exact skip_sublist c.inside _
        rcases reload hsub hsaved with heq | heq
        · exact .inl heq
        · exact .inr ⟨first, hsaved.duplicate, hv, heq⟩

omit [DecidableEq φ] in
theorem skip_append_duplicate {inside l : List α} {a : α} (hl : ∀ b ∈ l, b ∉ inside)
    (ha : a ∈ inside) : skip inside (l ++ [a]) = l := by
  induction l with
  | nil => simp [skip, ha]
  | cons b l ih =>
    rw [List.cons_append, skip_cons_of_not_mem (hl b List.mem_cons_self),
      ih fun c hc => hl c (List.mem_cons_of_mem b hc)]

omit [DecidableEq φ] in
theorem OpensAgain.left_eq {c e : Pass α φ} (h : OpensAgain sys c e f)
    (hinside : e.inside = c.inside) (hseparate : Separate c.inside (baseItems sys c.folders f)) :
    left sys e f = left sys c f := by
  have hout : ∀ a ∈ left sys c f, a ∉ c.inside := by
    intro a ha
    rw [left, skip_of_separate hseparate] at ha
    simpa using (List.mem_filter.mp ha).2
  rw [show left sys e f = skip e.inside (baseItems sys e.folders f) from rfl, hinside]
  rcases h.items with heq | ⟨first, hfirst, -, heq⟩
  · rw [heq]
    exact skip_eq_self hout
  · rw [heq]
    exact skip_append_duplicate hout hfirst

omit [DecidableEq φ] in
theorem OpensAgain.left_ne {c e : Pass α φ} (h : OpensAgain sys c e f)
    (hinside : e.inside = c.inside) (hseparate : ¬ Separate c.inside (baseItems sys c.folders f)) :
    left sys e f ≠ left sys c f := by
  have hleft := exists_left hseparate
  have hremoved : ∃ a ∈ left sys c f, a ∉ left sys e f := by
    rw [show left sys e f = skip e.inside (baseItems sys e.folders f) from rfl, hinside]
    have hnodup : (baseItems sys e.folders f).Nodup := h.usable.nodup
    rcases h.items with heq | ⟨first, -, -, heq⟩
    · rw [heq] at hnodup ⊢
      rw [← List.append_nil (left sys c f)] at hnodup
      obtain ⟨a, ha, hnot⟩ := exists_removed [] hnodup hleft
      rw [List.append_nil] at hnot
      exact ⟨a, ha, hnot⟩
    · rw [heq] at hnodup ⊢
      exact exists_removed [first] hnodup hleft
  obtain ⟨a, ha, hnot⟩ := hremoved
  exact fun heq => hnot (heq ▸ ha)

theorem OpensAgain.turn {c c₁ e e₁ : Pass α φ} (h : OpensAgain sys c e f)
    (hdel : ¬ IsDeleted sys c f) (hinside : e.inside = c.inside) (hicons : e.icons = c.icons)
    (hturned : Turned sys c c₁ f) (hturned' : Turned sys e e₁ f)
    (hfits : Fits sys c.folders c.inside f) :
    e₁.inside = c₁.inside ∧ e₁.icons = c₁.icons ∧ e₁.folders.views = e.folders.views := by
  by_cases hseparate : Separate c.inside (baseItems sys c.folders f)
  · have hleft := h.left_eq hinside hseparate
    refine ⟨?_, ?_, ?_⟩
    · rw [hturned'.inside, hturned.inside, hleft, hinside]
    · rw [hturned'.icons, hturned.icons, hleft, hicons]
    · rw [hturned'.view, hleft]
      have hview := h.view
      cases hv : c.folders.views f with
      | none =>
        rw [hv] at hview
        exact storeView_none hview _
      | some v =>
        rw [hv, Option.map_some] at hview
        rw [storeView_some hview, ← hview]
        exact Function.update_eq_self f e.folders.views
  · -- nothing but duplicates, in a default folder that has no icon
    obtain ⟨hall, hle, hnew⟩ := hfits.resolve_left hseparate
    have hone : (left sys c f).length ≤ 1 := (length_skip_le_one_iff hseparate).mpr ⟨hall, hle⟩
    have hnone : c.folders.views f = none := by
      refine Option.isNone_iff_eq_none.mp (hnew.resolve_left fun hdefault => hdel ⟨hone, hdefault⟩)
    have hone' : (left sys e f).length ≤ 1 := by
      have hallLeft : ∀ a ∈ left sys c f, a ∈ c.inside := fun a ha =>
        hall a ((skip_sublist c.inside _).subset ha)
      have hallBase : (∀ a ∈ baseItems sys e.folders f, a ∈ c.inside) ∧
          (baseItems sys e.folders f).length ≤ 2 := by
        rcases h.items with heq | ⟨first, hfirst, -, heq⟩
        · rw [heq]
          exact ⟨hallLeft, by omega⟩
        · rw [heq]
          refine ⟨fun a ha => ?_, by rw [List.length_append, List.length_singleton]; omega⟩
          rcases List.mem_append.mp ha with ha | ha
          · exact hallLeft a ha
          · exact List.mem_singleton.mp ha ▸ hfirst
      rw [show left sys e f = skip e.inside (baseItems sys e.folders f) from rfl, hinside,
        length_skip hallBase.1]
      omega
    refine ⟨?_, ?_, ?_⟩
    · rw [hturned'.inside, hturned.inside, if_pos hone, if_pos hone', hinside]
    · rw [hturned'.icons, hturned.icons, if_pos hone, if_pos hone', hicons]
    · rw [hturned'.view]
      refine storeView_none ?_ _
      rw [h.view, hnone]
      rfl

theorem Turned.insideAfter {c c₁ : Pass α φ}
    (hturned : Turned sys c c₁ f) (hfits : Fits sys c.folders c.inside f) :
    c₁.inside = Loads.insideAfter sys c.folders c.inside f := by
  rw [hturned.inside, Loads.insideAfter]
  by_cases hseparate : Separate c.inside (baseItems sys c.folders f)
  · rw [left, skip_of_separate hseparate]
  · obtain ⟨hall, hle, -⟩ := hfits.resolve_left hseparate
    have hone : (left sys c f).length ≤ 1 := (length_skip_le_one_iff hseparate).mpr ⟨hall, hle⟩
    have hnone : (baseItems sys c.folders f).filter (· ∉ c.inside) = [] := by
      rw [List.filter_eq_nil_iff]
      intro a ha
      simpa using hall a ha
    rw [if_pos hone, hnone]
    rfl

theorem Turned.usableOn {c c₁ : Pass α φ}
    (hturned : Turned sys c c₁ f) (hopen : Usable (openFolder sys c.folders f))
    (h : UsableOn c.folders l) : UsableOn c₁.folders l := by
  intro g hg v hv
  by_cases heq : g = f
  · rw [heq, hturned.view] at hv
    cases hview : c.folders.views f with
    | none =>
      rw [storeView_none hview, hview] at hv
      cases hv
    | some u =>
      rw [storeView_some hview, Function.update_self] at hv
      cases hv
      exact hopen.withLeft c.inside
  · exact h g hg v ((hturned.others g heq).symm.trans hv)

/-- Induction on the folders. -/
theorem foldl_usableOn (k : List φ) (hk : ∀ f ∈ k, f ∈ l) (h : UsableOn c.folders l) :
    UsableOn (k.foldl (loadFolder sys) c).folders l := by
  induction k generalizing c with
  | nil => exact h
  | cons f k ih =>
    have hopen : Usable (openFolder sys c.folders f) :=
      openFolder_usable sys (h f (hk f List.mem_cons_self))
    exact ih (fun g hg => hk g (List.mem_cons_of_mem f hg))
      ((loadFolder_turned hopen).usableOn hopen h)

theorem OpensAgain.differs {c c₁ c' e e₁ e' : Pass α φ} {l k : List φ}
    (h : OpensAgain sys c e f) (hinside : e.inside = c.inside) (hicons : e.icons = c.icons)
    (hturned : Turned sys c c₁ f) (hturned' : Turned sys e e₁ f) (hpassed : Passed c₁ c' l)
    (hpassed' : Passed e₁ e' k) (hk : f ∉ k) (hview : e.folders.views f = c'.folders.views f)
    (hfits : ¬ Fits sys c.folders c.inside f) :
    ¬ (e'.icons = c'.icons ∧ e'.folders.views = c'.folders.views) := by
  have hseparate : ¬ Separate c.inside (baseItems sys c.folders f) := fun hs => hfits (.inl hs)
  have hne := h.left_ne hinside hseparate
  rintro ⟨hiconsEq, hviewsEq⟩
  by_cases hone : (left sys c f).length ≤ 1
  · -- a default folder with an icon, whose view changes again
    obtain ⟨hall, hle⟩ := (length_skip_le_one_iff hseparate).mp hone
    have hagain := h.view
    cases hv : c.folders.views f with
    | none =>
      refine hfits (.inr ⟨hall, hle, .inr ?_⟩)
      rw [hv]
      rfl
    | some v =>
    rw [hv, Option.map_some] at hagain
    have hviewLast : e'.folders.views f =
        some ((openFolder sys e.folders f).withItems (left sys e f)) := by
      rw [hpassed'.views f hk, hturned'.view, storeView_some hagain, Function.update_self]
    rw [hviewsEq, ← hview, hagain] at hviewLast
    exact hne (congrArg Items.orderedItems (Option.some.inj hviewLast)).symm
  · -- a folder that is shown, with other items or not at all
    obtain ⟨rest, hrest, -⟩ := hpassed.icons
    obtain ⟨rest', hrest', hin⟩ := hpassed'.icons
    rw [hrest, hrest', hturned.icons, if_neg hone, hturned'.icons, hicons,
      List.append_assoc] at hiconsEq
    split at hiconsEq
    · have hcons := List.append_cancel_left hiconsEq
      have hhead : (f, left sys c f) ∈ rest' := by
        rw [hcons]
        exact List.mem_cons_self
      exact hk (hin _ hhead)
    · rw [List.append_assoc] at hiconsEq
      have hcons := List.append_cancel_left hiconsEq
      exact hne (congrArg Prod.snd (List.cons.inj hcons).1)

omit [DecidableEq φ] in
theorem baseItems_congr (sys : System α φ) {d d' : Folders α φ}
    (hkeys : SameKeys d.settings d'.settings f) (hviews : d'.views f = d.views f) :
    baseItems sys d' f = baseItems sys d f :=
  congrArg Items.orderedItems (openFolder_congr sys hkeys hviews)

/-- **The two passes.** The second one answers what the first one has answered, and leaves the views as
they are, if and only if each folder fits. Induction on the folders. -/
theorem again_iff (husable : UsableOn d l)
    (hl : l.Nodup) {c e : Pass α φ} (hd : Untouched d c l) (hinside : e.inside = c.inside)
    (hicons : e.icons = c.icons)
    (hviews : e.folders.views = (l.foldl (loadFolder sys) c).folders.views)
    (hkeys : ∀ f ∈ l, SameKeys (l.foldl (loadFolder sys) c).folders.settings e.folders.settings f) :
    (((survivors sys c l).foldl (loadFolder sys) e).icons = (l.foldl (loadFolder sys) c).icons ∧
        ((survivors sys c l).foldl (loadFolder sys) e).folders.views =
          (l.foldl (loadFolder sys) c).folders.views ↔ Apart sys d c.inside l) ∧
      (Apart sys d c.inside l → ((survivors sys c l).foldl (loadFolder sys) e).inside =
        (l.foldl (loadFolder sys) c).inside) := by
  induction l generalizing c e with
  | nil => exact ⟨iff_of_true ⟨hicons, hviews⟩ trivial, fun _ => hinside⟩
  | cons f l ih =>
    rw [List.nodup_cons] at hl
    obtain ⟨hkeysD, hviewsD⟩ := hd f List.mem_cons_self
    have hopenC : Usable (openFolder sys c.folders f) :=
      openFolder_usable sys fun v hv => husable f List.mem_cons_self v (hviewsD.symm.trans hv)
    have hturned := loadFolder_turned hopenC
    have husable' : UsableOn d l := fun g hg => husable g (List.mem_cons_of_mem f hg)
    have htail := hd.tail hturned hl.1
    have hpassed : Passed (loadFolder sys c f) (l.foldl (loadFolder sys) (loadFolder sys c f)) l :=
      foldl_passed htail husable' hl.2
    have hbase := baseItems_congr sys hkeysD hviewsD
    have hfitsD : Fits sys c.folders c.inside f ↔ Fits sys d c.inside f := by
      rw [Fits, Fits, hbase, hviewsD]
    have hafterD : insideAfter sys c.folders c.inside f = insideAfter sys d c.inside f := by
      rw [insideAfter, insideAfter, hbase]
    rw [List.foldl_cons] at hviews hkeys ⊢
    have hviewF : e.folders.views f = (loadFolder sys c f).folders.views f := by
      rw [hviews, hpassed.views f hl.1]
    have hkeysF := (hpassed.keys f hl.1).trans (hkeys f List.mem_cons_self)
    by_cases hdel : IsDeleted sys c f
    · -- the second pass does not come to it
      have hfits : Fits sys c.folders c.inside f := by
        by_cases hseparate : Separate c.inside (baseItems sys c.folders f)
        · exact .inl hseparate
        · obtain ⟨hall, hle⟩ := (length_skip_le_one_iff hseparate).mp hdel.1
          exact .inr ⟨hall, hle, .inl hdel.2⟩
      have hafter := hturned.insideAfter hfits
      have hsurvivors : survivors sys c (f :: l) = survivors sys (loadFolder sys c f) l := by
        rw [survivors, if_pos hdel]
      have hrest := ih husable' hl.2 htail
        (by rw [hturned.inside, if_pos hdel.1]; exact hinside)
        (by rw [hturned.icons, if_pos hdel.1]; exact hicons) hviews
        fun g hg => hkeys g (List.mem_cons_of_mem f hg)
      rw [hafter, hafterD] at hrest
      rw [hsurvivors, Apart]
      exact ⟨hrest.1.trans (iff_and_self.mpr fun _ => hfitsD.mp hfits),
        fun happ => hrest.2 happ.2⟩
    · have hopen := openAgain hopenC hturned hdel hviewF hkeysF
      have hturned' := loadFolder_turned hopen.usable
      have hsurvivors : survivors sys c (f :: l) = f :: survivors sys (loadFolder sys c f) l := by
        rw [survivors, if_neg hdel]
      rw [hsurvivors, List.foldl_cons, Apart]
      by_cases hfits : Fits sys c.folders c.inside f
      · obtain ⟨hinside₁, hicons₁, hviews₁⟩ :=
          hopen.turn hdel hinside hicons hturned hturned' hfits
        have hafter := hturned.insideAfter hfits
        have hrest := ih husable' hl.2 htail hinside₁ hicons₁ (hviews₁.trans hviews) fun g hg =>
          (hkeys g (List.mem_cons_of_mem f hg)).trans
            (hturned'.keys g fun heq => hl.1 (heq ▸ hg))
        rw [hafter, hafterD] at hrest
        exact ⟨hrest.1.trans (iff_and_self.mpr fun _ => hfitsD.mp hfits),
          fun happ => hrest.2 happ.2⟩
      · have hsub : ∀ g ∈ survivors sys (loadFolder sys c f) l, g ∈ l := survivors_subset _ l
        have husableC : UsableOn c.folders (f :: l) := fun g hg v hv =>
          husable g hg v ((hd g hg).2.symm.trans hv)
        have husableE : UsableOn e.folders (f :: l) := by
          have hpass : UsableOn ((f :: l).foldl (loadFolder sys) c).folders (f :: l) :=
            foldl_usableOn (f :: l) (fun _ => id) husableC
          intro g hg v hv
          exact hpass g hg v (by rw [List.foldl_cons, ← hviews]; exact hv)
        have husableE₁ := hturned'.usableOn hopen.usable husableE
        have huntouched : Untouched (loadFolder sys e f).folders (loadFolder sys e f)
            (survivors sys (loadFolder sys c f) l) := fun g _ => ⟨.refl _ g, rfl⟩
        have hpassed' : Passed (loadFolder sys e f) ((survivors sys (loadFolder sys c f) l).foldl
            (loadFolder sys) (loadFolder sys e f)) (survivors sys (loadFolder sys c f) l) :=
          foldl_passed huntouched
          (fun g hg => husableE₁ g (List.mem_cons_of_mem f (hsub g hg)))
          (survivors_nodup (loadFolder sys c f) hl.2)
        have hdiffers := hopen.differs hinside hicons hturned hturned' hpassed hpassed'
          (fun hin => hl.1 (hsub f hin)) (by rw [hviews]) hfits
        exact ⟨iff_of_false hdiffers fun happ => hfits (hfitsD.mpr happ.1),
          fun happ => absurd (hfitsD.mpr happ.1) hfits⟩

/-! ## The result -/

/-- What is asked of a pass: an app is shown in one place, the apps that are answered are
distinct, and neither `getAllItems` nor a second pass changes anything. -/
structure LoadsWell (sys : System α φ) (d : Folders α φ) : Prop where
  apart : ∀ a ∈ (loadApps sys d).2.apps, ∀ p ∈ (loadApps sys d).2.folders, a ∉ p.2
  nodup : (loadApps sys d).2.apps.Nodup
  getAllItems : ∀ f ∈ d.settings.folderChildren, ∀ v, d.views f = some v →
    v.getAllItems.orderedItems = v.orderedItems
  again : (loadApps sys (loadApps sys d).1).2 = (loadApps sys d).2
  views : (loadApps sys (loadApps sys d).1).1.views = (loadApps sys d).1.views

def Noted (c : Pass α φ) : Prop := ∀ p ∈ c.icons, ∀ a ∈ p.2, a ∈ c.inside

theorem loadFolder_noted (h : Noted c) (f : φ) : Noted (loadFolder sys c f) := by
  rw [loadFolder, endFolder]
  split
  · exact h
  · intro p hp a ha
    rcases List.mem_append.mp hp with hp | hp
    · exact List.mem_append_left _ (h p hp a ha)
    · rw [List.mem_singleton.mp hp] at ha
      exact List.mem_append_right _ ha

/-- Induction on the folders. -/
theorem foldl_noted (h : Noted c) (l : List φ) : Noted (l.foldl (loadFolder sys) c) := by
  induction l generalizing c with
  | nil => exact h
  | cons f l ih => exact ih (loadFolder_noted h f)

theorem loadApps_apart (sys : System α φ) (d : Folders α φ) :
    ∀ a ∈ (loadApps sys d).2.apps, ∀ p ∈ (loadApps sys d).2.folders, a ∉ p.2 := by
  intro a ha p hp hin
  have hnoted : Noted (loadFolders sys d) := foldl_noted (fun _ hp => (List.not_mem_nil hp).elim) _
  have hout : a ∉ (loadFolders sys d).inside := by simpa using (List.mem_filter.mp ha).2
  exact hout (hnoted p hp a hin)

theorem loadApps_nodup (sys : System α φ) (d : Folders α φ) : (loadApps sys d).2.apps.Nodup :=
  (sys.installed_nodup.filter _).filter _

def Sound (d : Folders α φ) : Prop := ∀ f v, d.views f = some v → v.orderedItems.Nodup

def InPlace (sys : System α φ) (d : Folders α φ) : Prop :=
  (∀ f ∈ d.settings.folderChildren, ∀ v ∈ d.views f, v.Undragged) ∧
    Apart sys d [] d.settings.folderChildren
deriving Decidable

/-- **Loading the applications.** For every display, with any folders, `_loadApps` shows an app in one
place; and calling it and `getAllItems` again changes nothing if and only if the folders are in place. -/
theorem loadsWell_iff (sys : System α φ) (d : Folders α φ)
    (hchildren : d.settings.folderChildren.Nodup) (hsound : Sound d) :
    LoadsWell sys d ↔ InPlace sys d := by
  have hundragged : InPlace sys d ∨ LoadsWell sys d → ∀ f ∈ d.settings.folderChildren,
      ∀ v, d.views f = some v → v.Undragged := by
    rintro (h | h) f hf v hv
    · exact h.1 f hf v hv
    · exact Items.undragged_iff.mpr (h.getAllItems f hf v hv)
  have hagain : UsableOn d d.settings.folderChildren →
      ((loadFolders sys (loadFolders sys d).folders).icons = (loadFolders sys d).icons ∧
        (loadFolders sys (loadFolders sys d).folders).folders.views =
          (loadFolders sys d).folders.views ↔ Apart sys d [] d.settings.folderChildren) ∧
      (Apart sys d [] d.settings.folderChildren →
        (loadFolders sys (loadFolders sys d).folders).inside = (loadFolders sys d).inside) := by
    intro husable
    have huntouched : Untouched d ⟨d, [], []⟩ d.settings.folderChildren := fun f _ => ⟨.refl _ f, rfl⟩
    have hleft : (loadFolders sys d).folders.settings.folderChildren =
        [] ++ survivors sys ⟨d, [], []⟩ d.settings.folderChildren :=
      folderChildren_foldl huntouched husable hchildren rfl
    rw [List.nil_append] at hleft
    rw [show loadFolders sys (loadFolders sys d).folders =
      ((loadFolders sys d).folders.settings.folderChildren).foldl (loadFolder sys)
        ⟨(loadFolders sys d).folders, [], []⟩ from rfl, hleft]
    exact again_iff husable hchildren huntouched rfl rfl rfl fun f _ => .refl _ f
  constructor
  · intro h
    have hdrag := hundragged (.inr h)
    have husable : UsableOn d d.settings.folderChildren := fun f hf v hv =>
      ⟨hdrag f hf v hv, hsound f v hv⟩
    exact ⟨fun f hf v hv => hdrag f hf v hv,
      (hagain husable).1.mp ⟨congrArg Icons.folders h.again, h.views⟩⟩
  · intro h
    have hdrag := hundragged (.inl h)
    have husable : UsableOn d d.settings.folderChildren := fun f hf v hv =>
      ⟨hdrag f hf v hv, hsound f v hv⟩
    obtain ⟨hicons, hviews⟩ := (hagain husable).1.mpr h.2
    have hinside := (hagain husable).2 h.2
    refine ⟨loadApps_apart sys d, loadApps_nodup sys d, fun f hf v hv => ?_, ?_, hviews⟩
    · exact Items.undragged_iff.mp (hdrag f hf v hv)
    · show Icons.mk _ _ = Icons.mk _ _
      rw [show (loadApps sys d).1 = (loadFolders sys d).folders from rfl, hicons, hinside]

/-! ## A system -/

def fiveApps : System ℕ ℕ where
  installed := [1, 2, 3, 4, 5]
  isFavorite _ := false
  shouldShowApp _ := true
  lookupApp _ := true
  categories _ := []
  isDefaultFolder _ := false
  compareNames _ _ := 0
  installed_nodup := by decide
  compareNames_total _ _ := .inl (Int.le_refl _)
  compareNames_trans _ _ _ _ _ := Int.le_refl _

def twoFolders (first second : List ℕ) : Folders ℕ ℕ where
  settings :=
    { folderChildren := [0, 1]
      apps := fun f => if f = 0 then first else second
      excludedApps := fun _ => []
      categories := fun _ => [] }
  views _ := none

/-- The folders have one app in common. -/
theorem loadsWell_common : LoadsWell fiveApps (twoFolders [1, 2] [1, 3, 4]) := by
  have hsound : Sound (twoFolders [1, 2] [1, 3, 4]) := fun _ _ h => by cases h
  exact (loadsWell_iff fiveApps (twoFolders [1, 2] [1, 3, 4]) (by decide) hsound).mpr (by decide)

/-- The apps that the folders have in common are next to each other in the second one. The first pass
leaves the second of them there, and the next pass removes it. -/
theorem not_loadsWell_neighbours :
    ¬ ∀ (sys : System ℕ ℕ) (d : Folders ℕ ℕ), d.settings.folderChildren.Nodup → Sound d →
      LoadsWell sys d := by
  intro h
  have hsound : Sound (twoFolders [1, 2] [1, 2, 3, 4]) := fun _ _ h => by cases h
  have hwell := h fiveApps (twoFolders [1, 2] [1, 2, 3, 4]) (by decide) hsound
  have hagain := congrArg Icons.folders hwell.again
  revert hagain
  decide

end Loads

end AppDisplay
