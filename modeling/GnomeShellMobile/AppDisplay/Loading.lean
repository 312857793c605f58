import GnomeShellMobile.AppDisplay.Display
import Mathlib.Data.List.Chain
import Mathlib.Order.Basic

/-!
# AppDisplay — loading the applications and the folders

`_loadApps` of `AppDisplay` with what it does to the folders. `getAllItems` does not copy: what it
answers is the array `_orderedItems` of the view. It takes the placeholders out of that array, and the
loop that removes duplicates runs over it while `removeItemById` takes items out of it, so the item after
a removed one moves into its place and is skipped.

The grids are left out: an icon is removed from the grid of its view with its item. The view of a folder
that is created shows its applications in the order of `_apps`.

* **`skip`**: what the loop leaves.
* **`Saved`**: what it has written to the settings by then.
* **`reload`**: what a view that is created again shows.
-/

namespace AppDisplay

open IconGrid

namespace Loads

variable {α φ : Type} [DecidableEq α] [DecidableEq φ]
variable {f : φ} {a : α} {inside l : List α} {sys : System α φ} {s t : FolderSettings α φ}

/-! ## The model -/

/-- The view of a folder: the ids of `_orderedItems`, and those of the placeholders that stand in it for
icons of other views while they are dragged. -/
structure Items (α : Type) where
  orderedItems : List α
  placeholders : List α

def Items.getAllItems (v : Items α) : Items α :=
  { v with orderedItems := v.placeholders.foldl Layout.spliceOut v.orderedItems }

/-- What `_loadApps` reads and writes: the settings of the folders, and the views of the folder icons in
`_items`. -/
structure Folders (α φ : Type) where
  settings : FolderSettings α φ
  views : φ → Option (Items α)

/-- `_saveCurrentLayout` of a folder's view, with its items -/
def saveItems (settings : FolderSettings α φ) (f : φ) (newFolderApps : List α) :
    FolderSettings α φ :=
  { settings with
    apps := Function.update settings.apps f newFolderApps
    excludedApps :=
      -- only a folder with categories has a list of excluded apps
      if settings.categories f = [] then settings.excludedApps
      else
        Function.update settings.excludedApps f
          ((settings.excludedApps f).filter
              (· ∉ newFolderApps.filter (· ∉ settings.apps f)) ++
            (settings.apps f).filter (· ∉ newFolderApps)) }

/-- One turn of the loop over the items, at index `i` of the array that is there by then, with
`removeItemById` -/
def removeDuplicate (inside : List α) (f : φ) (c : FolderSettings α φ × List α) (i : ℕ) :
    FolderSettings α φ × List α :=
  match c.2[i]? with
  | none => c
  | some a => if a ∈ inside then (saveItems c.1 f (c.2.erase a), c.2.erase a) else c

/-- "Remove any duplicate apps in the folders": `forEach` goes up to the length at its start. -/
def removeDuplicates (inside : List α) (f : φ) (settings : FolderSettings α φ) (items : List α) :
    FolderSettings α φ × List α :=
  (List.range items.length).foldl (removeDuplicate inside f) (settings, items)

def openFolder (sys : System α φ) (d : Folders α φ) (f : φ) : Items α :=
  (d.views f).getD ⟨FolderView.loadApps sys d.settings (Display.loadAppInfos sys) f, []⟩

/-- The two calls of `getAllItems` with the loop between them. -/
def cleanFolder (inside : List α) (f : φ) (settings : FolderSettings α φ) (v : Items α) :
    FolderSettings α φ × Items α :=
  ((removeDuplicates inside f settings v.getAllItems.orderedItems).1,
    Items.getAllItems { v with
      orderedItems := (removeDuplicates inside f settings v.getAllItems.orderedItems).2 })

/-- The local variables of `_loadApps`: `appsInsideFolders`, and the folders of `appIcons` with their
items. -/
structure Pass (α φ : Type) where
  folders : Folders α φ
  inside : List α
  icons : List (φ × List α)

def storeView (d : Folders α φ) (f : φ) (v : Items α) : φ → Option (Items α) :=
  if (d.views f).isSome then Function.update d.views f (some v) else d.views

variable (sys)

def endFolder (c : Pass α φ) (f : φ) (r : FolderSettings α φ × Items α) :
    Pass α φ :=
  if r.2.orderedItems.length ≤ 1 then
    { c with folders := ⟨Display.deleteFolder sys r.1 f, storeView c.folders f r.2⟩ }
  else
    { folders := ⟨r.1, storeView c.folders f r.2⟩
      inside := c.inside ++ r.2.orderedItems
      icons := c.icons ++ [(f, r.2.orderedItems)] }

def loadFolder (c : Pass α φ) (f : φ) : Pass α φ :=
  endFolder sys c f (cleanFolder c.inside f c.folders.settings (openFolder sys c.folders f))

def loadFolders (d : Folders α φ) : Pass α φ :=
  d.settings.folderChildren.foldl (loadFolder sys) ⟨d, [], []⟩

variable {sys}

/-- What `_loadApps` answers: the folders with their items, and the applications. -/
structure Icons (α φ : Type) where
  folders : List (φ × List α)
  apps : List α

def loadApps (sys : System α φ) (d : Folders α φ) : Folders α φ × Icons α φ :=
  ((loadFolders sys d).folders,
    { folders := (loadFolders sys d).icons
      apps := (Display.loadAppInfos sys).filter (· ∉ (loadFolders sys d).inside) })

/-! ## The loop over the items -/

def skip (inside : List α) : List α → List α
  | [] => []
  | [a] => if a ∈ inside then [] else [a]
  | a :: b :: l => if a ∈ inside then b :: skip inside l else a :: skip inside (b :: l)

theorem skip_cons_of_not_mem {inside : List α} (h : a ∉ inside) (l : List α) :
    skip inside (a :: l) = a :: skip inside l := by
  cases l with
  | nil => simp [skip, h]
  | cons b l => rw [skip, if_neg h]

theorem skip_sublist (inside l : List α) : (skip inside l).Sublist l := by
  induction l using skip.induct inside with
  | case1 => exact List.Sublist.refl _
  | case2 a h =>
    rw [skip, if_pos h]
    exact List.nil_sublist _
  | case3 a h =>
    rw [skip, if_neg h]
  | case4 a b l h ih =>
    rw [skip, if_pos h]
    exact (ih.cons_cons b).cons a
  | case5 a b l h ih =>
    rw [skip, if_neg h]
    exact ih.cons_cons a

theorem skip_eq_self (h : ∀ a ∈ l, a ∉ inside) : skip inside l = l := by
  induction l with
  | nil => rfl
  | cons a l ih =>
    rw [skip_cons_of_not_mem (h a List.mem_cons_self), ih fun b hb => h b (List.mem_cons_of_mem a hb)]

theorem exists_removed (l' : List α) (hnodup : (l ++ l').Nodup)
    (h : ∃ a ∈ l, a ∈ inside) : ∃ a ∈ l, a ∉ skip inside (l ++ l') := by
  induction l with
  | nil => simp at h
  | cons a l ih =>
    rw [List.cons_append, List.nodup_cons] at hnodup
    by_cases ha : a ∈ inside
    · refine ⟨a, List.mem_cons_self, fun hin => hnodup.1 ?_⟩
      rw [List.cons_append] at hin
      cases hl : l ++ l' with
      | nil =>
        rw [hl, skip, if_pos ha] at hin
        cases hin
      | cons b r =>
        rw [hl, skip, if_pos ha] at hin
        exact ((skip_sublist inside r).cons_cons b).subset hin
    · obtain ⟨b, hb, hin⟩ := h
      have hbl : b ∈ l := (List.mem_cons.mp hb).resolve_left fun heq => ha (heq ▸ hin)
      obtain ⟨d, hd, hnot⟩ := ih hnodup.2 ⟨b, hbl, hin⟩
      refine ⟨d, List.mem_cons_of_mem a hd, fun hmem => ?_⟩
      rw [List.cons_append, skip_cons_of_not_mem ha] at hmem
      rcases List.mem_cons.mp hmem with rfl | hmem
      · exact hnodup.1 (List.mem_append_left _ hd)
      · exact hnot hmem

def Separate (inside l : List α) : Prop := l.IsChain fun a b => ¬ (a ∈ inside ∧ b ∈ inside)

instance (inside l : List α) : Decidable (Separate inside l) :=
  inferInstanceAs (Decidable (List.IsChain _ l))

theorem skip_of_separate (h : Separate inside l) : skip inside l = l.filter (· ∉ inside) := by
  induction l using skip.induct inside with
  | case1 => rfl
  | case2 a ha => simp [skip, ha]
  | case3 a ha => simp [skip, ha]
  | case4 a b l ha ih =>
    rw [Separate, List.isChain_cons_cons] at h
    have hb : b ∉ inside := fun hb => h.1 ⟨ha, hb⟩
    rw [skip, if_pos ha, ih (List.IsChain.tail h.2)]
    simp [ha, hb]
  | case5 a b l ha ih =>
    rw [Separate, List.isChain_cons_cons] at h
    rw [skip, if_neg ha, ih h.2]
    simp [ha]

theorem exists_left (h : ¬ Separate inside l) : ∃ a ∈ skip inside l, a ∈ inside := by
  induction l using skip.induct inside with
  | case1 => exact absurd List.IsChain.nil h
  | case2 a | case3 a => exact absurd (List.IsChain.singleton a) h
  | case4 a b l ha ih =>
    rw [skip, if_pos ha]
    by_cases hb : b ∈ inside
    · exact ⟨b, List.mem_cons_self, hb⟩
    · -- the two that are in a row come after `b`
      have hrest : ¬ Separate inside l := by
        intro hl
        refine h (List.isChain_cons_cons.mpr ⟨fun hab => hb hab.2, ?_⟩)
        exact List.isChain_cons.mpr ⟨fun c _ hbc => hb hbc.1, hl⟩
      obtain ⟨c, hc, hin⟩ := ih hrest
      exact ⟨c, List.mem_cons_of_mem b hc, hin⟩
  | case5 a b l ha ih =>
    rw [skip, if_neg ha]
    obtain ⟨c, hc, hin⟩ := ih fun hl => h (List.isChain_cons_cons.mpr ⟨fun hab => ha hab.1, hl⟩)
    exact ⟨c, List.mem_cons_of_mem a hc, hin⟩

theorem length_skip (h : ∀ a ∈ l, a ∈ inside) : (skip inside l).length = l.length / 2 := by
  induction l using skip.induct inside with
  | case1 => simp [skip]
  | case2 a ha => simp [skip, ha]
  | case3 a ha => exact absurd (h a List.mem_cons_self) ha
  | case4 a b l ha ih =>
    have hl := ih fun c hc => h c (List.mem_cons_of_mem a (List.mem_cons_of_mem b hc))
    rw [skip, if_pos ha, List.length_cons, hl, List.length_cons, List.length_cons]
    omega
  | case5 a b l ha => exact absurd (h a List.mem_cons_self) ha

theorem filter_sublist_skip (inside l : List α) :
    (l.filter (· ∉ inside)).Sublist (skip inside l) := by
  induction l using skip.induct inside with
  | case1 => exact List.Sublist.refl _
  | case2 a ha => simp [ha]
  | case3 a ha => simp [skip, ha]
  | case4 a b l ha ih =>
    rw [skip, if_pos ha, List.filter_cons_of_neg (by simpa using ha)]
    by_cases hb : b ∈ inside
    · rw [List.filter_cons_of_neg (by simpa using hb)]
      exact ih.cons b
    · rw [List.filter_cons_of_pos (by simpa using hb)]
      exact ih.cons_cons b
  | case5 a b l ha ih =>
    rw [skip, if_neg ha, List.filter_cons_of_pos (by simpa using ha)]
    exact ih.cons_cons a

theorem length_skip_le_one_iff (h : ¬ Separate inside l) :
    (skip inside l).length ≤ 1 ↔ (∀ a ∈ l, a ∈ inside) ∧ l.length ≤ 3 := by
  constructor
  · intro hle
    have hall : ∀ a ∈ l, a ∈ inside := by
      by_contra hnot
      push Not at hnot
      obtain ⟨a, ha, hout⟩ := hnot
      obtain ⟨b, hb, hin⟩ := exists_left h
      have ha' : a ∈ skip inside l :=
        (filter_sublist_skip inside l).subset (List.mem_filter.mpr ⟨ha, by simpa using hout⟩)
      have heq : a = b := by
        cases hs : skip inside l with
        | nil =>
          rw [hs] at ha'
          cases ha'
        | cons c r =>
          rw [hs] at ha' hb hle
          rw [List.length_cons] at hle
          have hr : r = [] := List.length_eq_zero_iff.mp (by omega)
          rw [hr, List.mem_singleton] at ha' hb
          exact ha'.trans hb.symm
      exact hout (heq ▸ hin)
    refine ⟨hall, ?_⟩
    rw [length_skip hall] at hle
    omega
  · rintro ⟨hall, hle⟩
    rw [length_skip hall]
    omega

/-! ## What the loop writes -/

structure SameKeys (s t : FolderSettings α φ) (f : φ) : Prop where
  apps : t.apps f = s.apps f
  excludedApps : t.excludedApps f = s.excludedApps f
  categories : t.categories f = s.categories f

omit [DecidableEq α] [DecidableEq φ] in
theorem SameKeys.refl (s : FolderSettings α φ) (f : φ) : SameKeys s s f := ⟨rfl, rfl, rfl⟩

omit [DecidableEq α] [DecidableEq φ] in
theorem SameKeys.trans {s t u : FolderSettings α φ} (h1 : SameKeys s t f)
    (h2 : SameKeys t u f) : SameKeys s u f :=
  ⟨h2.apps.trans h1.apps, h2.excludedApps.trans h1.excludedApps, h2.categories.trans h1.categories⟩

omit [DecidableEq φ] in
theorem SameKeys.loadApps (h : SameKeys s t f) (sys : System α φ) (infos : List α) :
    FolderView.loadApps sys t infos f = FolderView.loadApps sys s infos f := by
  simp only [FolderView.loadApps, h.apps, h.excludedApps, h.categories]

theorem saveItems_others (s : FolderSettings α φ) {f g : φ} (h : g ≠ f) (items : List α) :
    SameKeys s (saveItems s f items) g := by
  refine ⟨Function.update_of_ne h _ _, ?_, rfl⟩
  show (if _ then _ else _ : φ → List α) g = _
  split
  · rfl
  · exact Function.update_of_ne h _ _

/-- What the loop has written when `items` are left of `all`, of which `first` was removed first. -/
structure Saved (inside all : List α) (f : φ) (s t : FolderSettings α φ) (items : List α)
    (first : α) : Prop where
  duplicate : first ∈ inside
  apps : t.apps f = items
  categories : t.categories f = s.categories f
  shown : (∀ a ∈ s.excludedApps f, a ∉ all) → ∀ a ∈ t.excludedApps f, a ∉ items
  removed : s.categories f ≠ [] → ∀ a ∈ all, a ∉ items → a = first ∨ a ∈ t.excludedApps f
  stays : s.categories f ≠ [] → ∀ a ∈ s.excludedApps f, a ∈ all ∨ a ∈ t.excludedApps f
  others : ∀ g, g ≠ f → SameKeys s t g
  folderChildren : t.folderChildren = s.folderChildren

theorem saveItems_excludedApps {s : FolderSettings α φ} (h : s.categories f ≠ []) (items : List α) :
    (saveItems s f items).excludedApps f =
      (s.excludedApps f).filter (· ∉ items.filter (· ∉ s.apps f)) ++
        (s.apps f).filter (· ∉ items) := by
  show (if _ then _ else _ : φ → List α) f = _
  rw [if_neg h, Function.update_self]

theorem saveItems_excludedApps_nil {s : FolderSettings α φ} (h : s.categories f = [])
    (items : List α) : (saveItems s f items).excludedApps = s.excludedApps := by
  show (if _ then _ else _ : φ → List α) = _
  rw [if_pos h]

theorem saved_first {inside : List α} (all : List α) (f : φ) (s : FolderSettings α φ)
    (ha : a ∈ inside) : Saved inside all f s (saveItems s f (all.erase a)) (all.erase a) a := by
  refine ⟨ha, Function.update_self _ _ _, rfl, fun hall b hb hin => ?_,
    fun hcat b hb hout => .inl ?_, fun hcat b hb => ?_, fun g hg => saveItems_others s hg _, rfl⟩
  · by_cases hcat : s.categories f = []
    · rw [saveItems_excludedApps_nil hcat] at hb
      exact hall b hb (List.mem_of_mem_erase hin)
    · rw [saveItems_excludedApps hcat, List.mem_append] at hb
      rcases hb with hb | hb
      · exact hall b (List.mem_filter.mp hb).1 (List.mem_of_mem_erase hin)
      · exact absurd hin (by simpa using (List.mem_filter.mp hb).2)
  · by_contra hne
    exact hout ((List.mem_erase_of_ne hne).mpr hb)
  · rw [saveItems_excludedApps hcat]
    by_cases hnew : b ∈ (all.erase a).filter (· ∉ s.apps f)
    · exact .inl (List.mem_of_mem_erase (List.mem_filter.mp hnew).1)
    · exact .inr (List.mem_append_left _ (List.mem_filter.mpr ⟨hb, decide_eq_true hnew⟩))

theorem Saved.next {inside all items : List α} {first : α}
    (h : Saved inside all f s t items first) (hnodup : items.Nodup) (ha : a ∈ items) :
    Saved inside all f s (saveItems t f (items.erase a)) (items.erase a) first := by
  have hsub : ∀ b ∈ items.erase a, b ∈ items := fun b hb => List.mem_of_mem_erase hb
  -- all that is left was stored, so nothing is taken off the list of excluded apps
  have hadded : (items.erase a).filter (· ∉ t.apps f) = [] := by
    rw [h.apps, List.filter_eq_nil_iff]
    intro b hb
    simpa using hsub b hb
  have hexcluded : s.categories f ≠ [] → ∀ b, b ∈ (saveItems t f (items.erase a)).excludedApps f ↔
      b ∈ t.excludedApps f ∨ b = a := by
    intro hcat b
    rw [saveItems_excludedApps (h.categories ▸ hcat), hadded, h.apps, List.mem_append]
    refine or_congr (by simp) ?_
    rw [List.mem_filter]
    constructor
    · rintro ⟨hb, hout⟩
      by_contra hne
      exact absurd ((List.mem_erase_of_ne hne).mpr hb) (by simpa using hout)
    · rintro rfl
      exact ⟨ha, by simpa using hnodup.not_mem_erase⟩
  refine ⟨h.duplicate, Function.update_self _ _ _, h.categories, fun hall b hb hin => ?_,
    fun hcat b hb hout => ?_, fun hcat b hb => ?_,
    fun g hg => (h.others g hg).trans (saveItems_others t hg _), h.folderChildren⟩
  · by_cases hcat : t.categories f = []
    · rw [saveItems_excludedApps_nil hcat] at hb
      exact h.shown hall b hb (hsub b hin)
    · rcases (hexcluded (h.categories ▸ hcat) b).mp hb with hb | rfl
      · exact h.shown hall b hb (hsub b hin)
      · exact hnodup.not_mem_erase hin
  · rw [hexcluded hcat]
    by_cases hitems : b ∈ items
    · refine .inr (.inr ?_)
      by_contra hne
      exact hout ((List.mem_erase_of_ne hne).mpr hitems)
    · exact (h.removed hcat b hb hitems).imp_right .inl
  · rw [hexcluded hcat]
    exact (h.stays hcat b hb).imp_right .inl

def Written (inside all : List α) (f : φ) (s t : FolderSettings α φ) (items : List α) : Prop :=
  t = s ∧ items = all ∨ ∃ first, Saved inside all f s t items first

theorem removeDuplicate_beyond (inside : List α) (f : φ) (t : FolderSettings α φ) {items : List α}
    {i : ℕ} (hi : items.length ≤ i) : removeDuplicate inside f (t, items) i = (t, items) := by
  rw [removeDuplicate, List.getElem?_eq_none hi]

/-- Induction on the number of turns. -/
theorem foldl_beyond (inside : List α) (f : φ) (t : FolderSettings α φ) {items : List α} (k : ℕ)
    {i : ℕ} (hi : items.length ≤ i) :
    (List.range' i k).foldl (removeDuplicate inside f) (t, items) = (t, items) := by
  induction k generalizing i with
  | zero => rfl
  | succ k ih =>
    rw [List.range'_succ, List.foldl_cons, removeDuplicate_beyond inside f t hi]
    exact ih (by omega)

theorem Written.remove {inside all items rest : List α}
    (ha : a ∈ inside) (hnodup : (items ++ a :: rest).Nodup)
    (h : Written inside all f s t (items ++ a :: rest)) :
    removeDuplicate inside f (t, items ++ a :: rest) items.length =
        (saveItems t f (items ++ rest), items ++ rest) ∧
      Written inside all f s (saveItems t f (items ++ rest)) (items ++ rest) := by
  have herase : (items ++ a :: rest).erase a = items ++ rest := by
    have hout : a ∉ items := fun hin =>
      (List.nodup_append.mp hnodup).2.2 a hin a List.mem_cons_self rfl
    rw [List.erase_append_right _ hout, List.erase_cons_head]
  constructor
  · rw [removeDuplicate, List.getElem?_append_right (le_refl _)]
    simp only [Nat.sub_self, List.getElem?_cons_zero, if_pos ha, herase]
  · rcases h with ⟨rfl, hitems⟩ | ⟨first, h⟩
    · have hfirst := saved_first all f t ha
      rw [← hitems, herase] at hfirst
      exact .inr ⟨a, hitems ▸ hfirst⟩
    · have hnext := h.next hnodup (List.mem_append_right items List.mem_cons_self)
      rw [herase] at hnext
      exact .inr ⟨first, hnext⟩

/-- The turns of the loop from the end of `items` on, with `rest` after it. Induction on the number of
turns. -/
theorem foldl_removeDuplicate {inside all : List α} {s : FolderSettings α φ} {k : ℕ}
    {items rest : List α} {t : FolderSettings α φ} (hk : rest.length ≤ k) (hnodup : (items ++ rest).Nodup)
    (h : Written inside all f s t (items ++ rest)) :
    ∃ t', (List.range' items.length k).foldl (removeDuplicate inside f) (t, items ++ rest) =
        (t', items ++ skip inside rest) ∧
      Written inside all f s t' (items ++ skip inside rest) := by
  induction k generalizing items rest t with
  | zero =>
    obtain rfl := List.length_eq_zero_iff.mp (Nat.le_zero.mp hk)
    exact ⟨t, by simp [skip], by simpa [skip] using h⟩
  | succ k ih =>
    cases rest with
    | nil =>
      refine ⟨t, ?_, by simpa [skip] using h⟩
      rw [List.append_nil, foldl_beyond inside f t (k + 1) (le_refl _), skip, List.append_nil]
    | cons a r =>
      have hlength : ∀ b, items.length + 1 = (items ++ [b]).length := fun b => by simp
      have happend : ∀ b l, items ++ b :: l = (items ++ [b]) ++ l := fun b l => by simp
      rw [List.length_cons] at hk
      rw [List.range'_succ, List.foldl_cons]
      by_cases ha : a ∈ inside
      · obtain ⟨heq, hwritten⟩ := h.remove ha hnodup
        have hrest : (items ++ r).Nodup :=
          hnodup.sublist (List.Sublist.append_left (List.sublist_cons_self a r) items)
        rw [heq]
        cases r with
        | nil =>
          rw [foldl_beyond inside f _ k (by rw [List.append_nil]; omega), skip, if_pos ha]
          exact ⟨_, rfl, hwritten⟩
        | cons b l =>
          -- `b` is at the index that the loop has dealt with
          rw [skip, if_pos ha, happend b (skip inside l), hlength b]
          rw [happend b l] at hwritten hrest ⊢
          rw [List.length_cons] at hk
          exact ih (by omega) hrest hwritten
      · have hstep : removeDuplicate inside f (t, items ++ a :: r) items.length =
            (t, items ++ a :: r) := by
          rw [removeDuplicate, List.getElem?_append_right (le_refl _)]
          simp only [Nat.sub_self, List.getElem?_cons_zero, if_neg ha]
        rw [hstep, skip_cons_of_not_mem ha, happend a (skip inside r), hlength a]
        rw [happend a r] at h hnodup ⊢
        exact ih (by omega) hnodup h

/-- **The loop over the items of a folder.** -/
theorem removeDuplicates_eq (inside : List α) {all : List α} (f : φ) (s : FolderSettings α φ)
    (hnodup : all.Nodup) : ∃ t, removeDuplicates inside f s all = (t, skip inside all) ∧
      Written inside all f s t (skip inside all) := by
  rw [removeDuplicates, List.range_eq_range']
  have hloop : ∃ t, (List.range' ([] : List α).length all.length).foldl (removeDuplicate inside f)
      (s, [] ++ all) = (t, [] ++ skip inside all) ∧
        Written inside all f s t ([] ++ skip inside all) :=
    foldl_removeDuplicate (le_refl _) hnodup (.inl ⟨rfl, rfl⟩)
  exact hloop

/-! ## A view that is created again -/

/-- An app that `addAppId` does not refuse. -/
def Passes (sys : System α φ) (excludedApps : List α) (a : α) : Prop :=
  a ∉ excludedApps ∧ sys.isFavorite a = false ∧ sys.lookupApp a = true ∧ sys.shouldShowApp a = true

omit [DecidableEq φ] in
theorem addAppId_of_passes {excludedApps apps : List α} (h : Passes sys excludedApps a) :
    FolderView.addAppId sys excludedApps apps a = if a ∈ apps then apps else apps ++ [a] := by
  obtain ⟨hexcluded, hfavorite, hlookup, hshow⟩ := h
  simp [FolderView.addAppId, hexcluded, hfavorite, hlookup, hshow]

omit [DecidableEq φ] in
theorem addAppId_of_not_passes {excludedApps apps : List α}
    (h : ¬ Passes sys excludedApps a) : FolderView.addAppId sys excludedApps apps a = apps := by
  unfold FolderView.addAppId
  split
  · rfl
  split
  · rfl
  split
  · rfl
  split
  · rfl
  · next h1 h2 h3 h4 =>
    exact absurd ⟨h1, by simpa using h2, by simpa using h3, by simpa using h4⟩ h

omit [DecidableEq φ] in
/-- What is added comes after what is there, and is what passes. Induction on the ids. -/
theorem foldl_addAppId (sys : System α φ) (excludedApps ids apps : List α) :
    ∃ extra, ids.foldl (FolderView.addAppId sys excludedApps) apps = apps ++ extra ∧
      ∀ a, a ∈ apps ++ extra ↔ a ∈ apps ∨ a ∈ ids ∧ Passes sys excludedApps a := by
  induction ids generalizing apps with
  | nil => exact ⟨[], by simp, by simp⟩
  | cons b ids ih =>
    rw [List.foldl_cons]
    by_cases hpasses : Passes sys excludedApps b
    swap
    · rw [addAppId_of_not_passes hpasses]
      obtain ⟨extra, heq, hmem⟩ := ih apps
      refine ⟨extra, heq, fun a => ?_⟩
      rw [hmem, List.mem_cons]
      refine or_congr_right (and_congr_left fun ha => ?_)
      exact ⟨.inr, fun h => h.resolve_left fun heq => hpasses (heq ▸ ha)⟩
    rw [addAppId_of_passes hpasses]
    split
    · next hin =>
      obtain ⟨extra, heq, hmem⟩ := ih apps
      refine ⟨extra, heq, fun a => ?_⟩
      rw [hmem, List.mem_cons]
      constructor
      · exact fun h => h.imp_right fun h => ⟨.inr h.1, h.2⟩
      · rintro (h | ⟨rfl | h, ha⟩)
        · exact .inl h
        · exact .inl hin
        · exact .inr ⟨h, ha⟩
    · obtain ⟨extra, heq, hmem⟩ := ih (apps ++ [b])
      refine ⟨b :: extra, by rw [heq, List.append_assoc]; rfl, fun a => ?_⟩
      have hsplit : apps ++ b :: extra = (apps ++ [b]) ++ extra := by simp
      rw [hsplit, hmem, List.mem_append, List.mem_singleton, List.mem_cons]
      constructor
      · rintro ((h | rfl) | ⟨h, ha⟩)
        · exact .inl h
        · exact .inr ⟨.inl rfl, hpasses⟩
        · exact .inr ⟨.inr h, ha⟩
      · rintro (h | ⟨rfl | h, ha⟩)
        · exact .inl (.inl h)
        · exact .inl (.inr rfl)
        · exact .inr ⟨h, ha⟩

omit [DecidableEq φ] in
/-- Apps that all pass are added in their order. Induction on the ids. -/
theorem foldl_addAppId_eq {excludedApps ids apps : List α}
    (hpasses : ∀ a ∈ ids, Passes sys excludedApps a) (hnodup : (apps ++ ids).Nodup) :
    ids.foldl (FolderView.addAppId sys excludedApps) apps = apps ++ ids := by
  induction ids generalizing apps with
  | nil => simp
  | cons b ids ih =>
    have hout : b ∉ apps := fun hin =>
      (List.nodup_append.mp hnodup).2.2 b hin b List.mem_cons_self rfl
    have hsplit : apps ++ b :: ids = (apps ++ [b]) ++ ids := by simp
    rw [List.foldl_cons, addAppId_of_passes (hpasses b List.mem_cons_self), if_neg hout, hsplit]
    rw [hsplit] at hnodup
    exact ih (fun a ha => hpasses a (List.mem_cons_of_mem b ha)) hnodup

def byCategory (sys : System α φ) (settings : FolderSettings α φ) (infos : List α) (f : φ) : List α :=
  infos.filter fun a => listsIntersect (settings.categories f) (sys.categories a)

omit [DecidableEq φ] in
theorem mem_loadApps {settings : FolderSettings α φ} {infos : List α} :
    a ∈ FolderView.loadApps sys settings infos f ↔
      (a ∈ settings.apps f ∨ a ∈ byCategory sys settings infos f) ∧
        Passes sys (settings.excludedApps f) a := by
  obtain ⟨first, hfirst, hmemFirst⟩ := foldl_addAppId sys (settings.excludedApps f)
    (settings.apps f) []
  obtain ⟨extra, hextra, hmemExtra⟩ := foldl_addAppId sys (settings.excludedApps f)
    (byCategory sys settings infos f) ([] ++ first)
  have heq : FolderView.loadApps sys settings infos f = ([] ++ first) ++ extra := by
    rw [← hextra, ← hfirst]
    rfl
  rw [heq, hmemExtra, hmemFirst]
  simp only [List.not_mem_nil, false_or]
  tauto

omit [DecidableEq α] [DecidableEq φ] in
theorem mem_byCategory_ne_nil {settings : FolderSettings α φ} {infos : List α}
    (h : a ∈ byCategory sys settings infos f) : settings.categories f ≠ [] := by
  intro hnil
  have hany := (List.mem_filter.mp h).2
  rw [hnil] at hany
  cases hany

omit [DecidableEq φ] in
/-- **A view that is created again.** After the loop has removed duplicates, the view of the folder has
what was left, and perhaps the first one that was removed again, at its end: that one is of a category of
the folder, and was not in the list of its apps. -/
theorem reload {infos items inside : List α}
    {first : α} (hsub : items.Sublist (FolderView.loadApps sys s infos f))
    (h : Saved inside (FolderView.loadApps sys s infos f) f s t items first) :
    FolderView.loadApps sys t infos f = items ∨
      FolderView.loadApps sys t infos f = items ++ [first] := by
  have hall : ∀ a ∈ s.excludedApps f, a ∉ FolderView.loadApps sys s infos f := by
    intro a ha hin
    exact (mem_loadApps.mp hin).2.1 ha
  have hnodup : items.Nodup := FolderView.nodup_loadApps.sublist hsub
  have hpasses : ∀ a ∈ items, Passes sys (t.excludedApps f) a := by
    intro a ha
    obtain ⟨-, -, hrest⟩ := mem_loadApps.mp (hsub.subset ha)
    exact ⟨fun hex => h.shown hall a hex ha, hrest⟩
  obtain ⟨extra, hextra, hmem⟩ := foldl_addAppId sys (t.excludedApps f)
    (byCategory sys t infos f) items
  have heq : FolderView.loadApps sys t infos f = items ++ extra := by
    rw [← hextra]
    have hfirst : items.foldl (FolderView.addAppId sys (t.excludedApps f)) [] = [] ++ items :=
      foldl_addAppId_eq hpasses hnodup
    rw [List.nil_append] at hfirst
    show (byCategory sys t infos f).foldl _ ((t.apps f).foldl _ []) = _
    rw [h.apps, hfirst]
  have hnodupAll : (items ++ extra).Nodup := heq ▸ FolderView.nodup_loadApps
  have honly : ∀ a ∈ extra, a = first := by
    intro a ha
    have hout : a ∉ items := fun hin => (List.nodup_append.mp hnodupAll).2.2 a hin a ha rfl
    obtain ⟨hcategory, hpass⟩ := ((hmem a).mp (List.mem_append_right items ha)).resolve_left hout
    have hcategory : a ∈ byCategory sys s infos f := by
      rw [byCategory, ← h.categories]
      exact hcategory
    have hne := mem_byCategory_ne_nil hcategory
    have hin : a ∈ FolderView.loadApps sys s infos f := by
      by_cases hex : a ∈ s.excludedApps f
      · exact (h.stays hne a hex).resolve_right hpass.1
      · exact mem_loadApps.mpr ⟨.inr hcategory, hex, hpass.2⟩
    exact (h.removed hne a hin hout).resolve_right hpass.1
  cases extra with
  | nil => exact .inl (by rw [heq, List.append_nil])
  | cons a r =>
    refine .inr ?_
    have hr : r = [] := by
      cases r with
      | nil => rfl
      | cons b r =>
        -- both would be the first one that was removed
        have hab : a = b := (honly a (by simp)).trans (honly b (by simp)).symm
        have hextraNodup := (List.nodup_append.mp hnodupAll).2.1
        exact absurd (hab ▸ List.mem_cons_self) (List.nodup_cons.mp hextraNodup).1
    rw [heq, hr, honly a List.mem_cons_self]

end Loads

end AppDisplay
