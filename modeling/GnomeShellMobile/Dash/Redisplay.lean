import Mathlib.Data.List.Nodup
import Mathlib.Data.List.Perm.Basic
import Mathlib.Data.List.Perm.Subperm
import Mathlib.Logic.Relation

/-!
# Dash — the items after the comparison of the apps shown and wanted

`_redisplay` of `Dash` in `js/ui/dash.js` goes through the apps that are in the box and the apps that
are wanted, notes what to add and what to remove, and then carries this out: first the additions, at
the indices noted, then the removals.

* **`loop_ends`** — the comparison ends, and finds an item wherever it removes one.
* **`Shape.turn`** — where the created items stand while they are inserted.
* **`length_front_of_fits`** / **`fits_of_length_front`** — an index is right exactly if it fits.
* **`settles_iff`** — the headline.
-/

namespace Dash

/-- A `DashItemContainer` of an app. -/
structure Item (α : Type*) where
  /-- Which actor it is. -/
  actor : ℕ
  app : α
  animatingOut : Bool
deriving DecidableEq

inductive Child (α : Type*)
  | item (i : Item α)
  | separator
  | dragPlaceholder
  | emptyDropTarget

/-- The filter for `child._delegate.app`; an item that is animating out passes it as well. -/
def Child.item? {α : Type*} : Child α → Option (Item α)
  | .item i => some i
  | _ => none

end Dash

/-- What `_redisplay` starts from. -/
structure Dash (α : Type*) where
  box : List (Dash.Child α)
  getId : α → String
  /-- The values of `getFavoriteMap()`. -/
  favorites : List α
  running : List α
  actors_nodup : ((box.filterMap Dash.Child.item?).map Dash.Item.actor).Nodup
  favorites_nodup : favorites.Nodup
  running_nodup : running.Nodup

namespace Dash

variable {α : Type*}
variable {pos : ℕ} {app : α} {i : Item α} {fuel : ℕ}

structure AddedItem (α : Type*) where
  app : α
  pos : ℕ

structure Loop (α : Type*) where
  newIndex : ℕ
  oldIndex : ℕ
  addedItems : List (AddedItem α)
  removedActors : List (Item α)

def Loop.start : Loop α := ⟨0, 0, [], []⟩

variable (d : Dash α)

def children : List (Item α) := d.box.filterMap Child.item?

def oldApps : List α := d.children.map Item.app

def newApps : List α :=
  d.favorites ++ d.running.filter fun app => d.getId app ∉ d.favorites.map d.getId

variable (s : Loop α)

/-- `removedActors.push(children[oldIndex])`; `none` when there is no such child, since what was pushed
is used later. -/
def removeOld : Option (Loop α) :=
  d.children[s.oldIndex]?.map fun actor =>
    { s with removedActors := s.removedActors ++ [actor], oldIndex := s.oldIndex + 1 }

/-- `addedItems.push({ app: newApp, … })`, at this position. -/
def addNew (pos : ℕ) : Option (Loop α) :=
  d.newApps[s.newIndex]?.map fun app =>
    { s with addedItems := s.addedItems ++ [⟨app, pos⟩], newIndex := s.newIndex + 1 }

inductive Branch
  | noChange | removed | added | movedHere | movedAway
deriving DecidableEq

def More : Prop :=
  s.newIndex < d.newApps.length ∨ s.oldIndex < d.oldApps.length
deriving Decidable

inductive Slot (α : Type*)
  | child (c : Child α)
  | created (app : α)

/-- `insert_child_at_index` of the item that was created; past the end it is put last. -/
def insertChildAtIndex (box : List (Slot α)) (a : AddedItem α) : List (Slot α) :=
  box.take a.pos ++ .created a.app :: box.drop a.pos

def boxAfter : List (Slot α) :=
  s.addedItems.foldl insertChildAtIndex (d.box.map .child)

variable {d : Dash α} {s t f : Loop α}

theorem newApps_nodup (d : Dash α) : d.newApps.Nodup := by
  refine d.favorites_nodup.append (d.running_nodup.filter _) fun app hfav hrun => ?_
  have hnot := (List.mem_filter.mp hrun).2
  rw [decide_eq_true_eq] at hnot
  exact hnot (List.mem_map_of_mem hfav)

theorem children_nodup (d : Dash α) : d.children.Nodup := d.actors_nodup.of_map _

theorem oldApps_getElem? (d : Dash α) (i : ℕ) : d.oldApps[i]? = d.children[i]?.map Item.app :=
  List.getElem?_map

theorem oldApps_length (d : Dash α) : d.oldApps.length = d.children.length := List.length_map _

theorem removeOld_eq_some (h : d.removeOld s = some t) : ∃ i, d.children[s.oldIndex]? = some i ∧
    t = { s with removedActors := s.removedActors ++ [i], oldIndex := s.oldIndex + 1 } := by
  obtain ⟨i, hi, rfl⟩ := Option.map_eq_some_iff.mp h
  exact ⟨i, hi, rfl⟩

theorem addNew_eq_some (h : d.addNew s pos = some t) : ∃ app, d.newApps[s.newIndex]? = some app ∧
    t = { s with addedItems := s.addedItems ++ [⟨app, pos⟩], newIndex := s.newIndex + 1 } := by
  obtain ⟨app, happ, rfl⟩ := Option.map_eq_some_iff.mp h
  exact ⟨app, happ, rfl⟩

theorem exists_removeOld (h : s.oldIndex < d.oldApps.length) : ∃ t, d.removeOld s = some t := by
  rw [oldApps_length] at h
  unfold removeOld
  rw [List.getElem?_eq_getElem h, Option.map_some]
  exact ⟨_, rfl⟩

theorem exists_addNew (h : s.newIndex < d.newApps.length) (pos : ℕ) : ∃ t, d.addNew s pos = some t := by
  unfold addNew
  rw [List.getElem?_eq_getElem h, Option.map_some]
  exact ⟨_, rfl⟩

theorem take_succ_of_getElem? {β : Type*} {l : List β} {k : ℕ} {b : β} (h : l[k]? = some b) :
    l.take (k + 1) = l.take k ++ [b] := by
  rw [List.take_add_one, h, Option.toList_some]

theorem not_mem_take (hi : d.children[s.oldIndex]? = some i) : i ∉ d.children.take s.oldIndex := by
  have hnodup := d.children_nodup.sublist (List.take_sublist (s.oldIndex + 1) d.children)
  rw [take_succ_of_getElem? hi] at hnodup
  intro hmem
  exact List.disjoint_of_nodup_append hnodup hmem (List.mem_singleton_self i)

theorem children_length_le (d : Dash α) : d.children.length ≤ d.box.length := List.length_filterMap_le _ _

theorem boxAfter_append (d : Dash α) (s : Loop α) (a : AddedItem α) (newIndex : ℕ) :
    d.boxAfter { s with addedItems := s.addedItems ++ [a], newIndex := newIndex } =
      insertChildAtIndex (d.boxAfter s) a := by
  unfold boxAfter
  rw [List.foldl_append, List.foldl_cons, List.foldl_nil]

def OwnIndices (d : Dash α) (s : Loop α) : Prop := ∀ a ∈ s.addedItems, d.newApps[a.pos]? = some a.app

theorem pos_eq_of_own (happ : d.newApps[s.newIndex]? = some app)
    (hown : d.OwnIndices { s with addedItems := s.addedItems ++ [⟨app, pos⟩], newIndex := s.newIndex + 1 }) :
    d.OwnIndices s ∧ pos = s.newIndex := by
  refine ⟨fun a ha => hown a (List.mem_append_left _ ha), ?_⟩
  have hself : d.newApps[pos]? = some app :=
    hown ⟨app, pos⟩ (List.mem_append_right _ (List.mem_singleton_self _))
  have hlt := (List.getElem?_eq_some_iff.mp hself).1
  exact (List.getElem?_inj hlt d.newApps_nodup).mp (hself.trans happ.symm)

theorem map_item_of_length {l : List (Child α)} (h : (l.filterMap Child.item?).length = l.length) :
    l = (l.filterMap Child.item?).map .item := by
  induction l with
  | nil => rfl
  | cons c l ih =>
    have hle := List.length_filterMap_le Child.item? l
    cases c with
    | item i =>
      have hcons : (Child.item i :: l).filterMap Child.item? = i :: l.filterMap Child.item? := rfl
      rw [hcons, List.length_cons, List.length_cons] at h
      rw [hcons, List.map_cons, ← ih (by omega)]
    | _ =>
      have hskip : ∀ c : Child α, c.item? = none → (c :: l).filterMap Child.item? = l.filterMap Child.item? :=
        fun c hc => List.filterMap_cons_none hc
      rw [hskip _ rfl, List.length_cons] at h
      omega

theorem exists_take_children (d : Dash α) (k : ℕ) :
    ∃ m ≤ k, (d.box.take k).filterMap Child.item? = d.children.take m ∧ (d.children.take m).length = m := by
  have hleading : (d.box.take k).filterMap Child.item? <+: d.children := (List.take_prefix k d.box).filterMap _
  have heq := List.prefix_iff_eq_take.mp hleading
  have hle := List.length_filterMap_le Child.item? (d.box.take k)
  refine ⟨_, Nat.le_trans hle (List.length_take_le _ _), heq, ?_⟩
  rw [← heq]

variable [DecidableEq α]

def branch (d : Dash α) (s : Loop α) : Branch :=
  let oldApp := d.oldApps[s.oldIndex]?
  let newApp := d.newApps[s.newIndex]?
  if oldApp = newApp then .noChange
  else if oldApp.any (· ∉ d.newApps) then .removed
  else if newApp.any (· ∉ d.oldApps) then .added
  else
    let nextApp := d.newApps[s.newIndex + 1]?
    let insertHere := nextApp.isSome && nextApp == oldApp
    let alreadyRemoved := s.removedActors.any fun actor => some actor.app == newApp
    if insertHere || alreadyRemoved then .movedHere else .movedAway

/-- One turn of the loop; `none` is a `TypeError`. -/
def body (d : Dash α) (s : Loop α) : Option (Loop α) :=
  match d.branch s with
  | .noChange => some { s with oldIndex := s.oldIndex + 1, newIndex := s.newIndex + 1 }
  | .removed => d.removeOld s
  | .added => d.addNew s s.newIndex
  | .movedHere => d.addNew s (s.newIndex + s.removedActors.length)
  | .movedAway => d.removeOld s

/-- The loop; `none` also when the fuel does not last. -/
def loop (d : Dash α) : ℕ → Loop α → Option (Loop α)
  | 0, _ => none
  | fuel + 1, s => if d.More s then (d.body s).bind (d.loop fuel) else some s

def Item.shows (removedActors : List (Item α)) (i : Item α) : Option α :=
  if i ∈ removedActors ∨ i.animatingOut = true then none else some i.app

def Slot.shows (removedActors : List (Item α)) : Slot α → Option α
  | .child c => c.item?.bind (Item.shows removedActors)
  | .created app => some app

def shown (d : Dash α) (s : Loop α) : List α := (d.boxAfter s).filterMap (Slot.shows s.removedActors)

/-! ## What is meant to hold -/

def Settles (d : Dash α) : Prop := ∃ fuel s, d.loop fuel .start = some s ∧ d.shown s = d.newApps

def Turn (d : Dash α) (s t : Loop α) : Prop := d.More s ∧ d.body s = some t

def Passes (d : Dash α) (s : Loop α) : Prop := Relation.ReflTransGen d.Turn .start s

def kept (d : Dash α) (s : Loop α) : List (Item α) :=
  (d.children.take s.oldIndex).filter (· ∉ s.removedActors)

/-- An item that stays is not animating out. An app that is new is added behind the items that stay
and nothing else, with no item before it that was put elsewhere than at its own index. An app that
moves here is added when no item that stays is further back than `oldIndex`. -/
def FitsAt (d : Dash α) (s : Loop α) : Prop :=
  match d.branch s with
  | .noChange => ∀ i, d.children[s.oldIndex]? = some i → i.animatingOut = false
  | .added => (d.kept s).map Child.item <+: d.box ∧ d.OwnIndices s
  | .movedHere => ∀ i ∈ d.kept s, Child.item i ∈ d.box.take s.oldIndex
  | .removed | .movedAway => True

def Fits (d : Dash α) : Prop := ∀ s, d.Passes s → d.FitsAt s

/-! ## The turns -/

theorem branch_noChange (h : d.branch s = .noChange) :
    d.oldApps[s.oldIndex]? = d.newApps[s.newIndex]? := by
  unfold branch at h
  dsimp only at h
  split at h
  · assumption
  · split at h
    · cases h
    · split at h
      · cases h
      · split at h <;> cases h

theorem turn_cases (h : d.Turn s t) :
    (∃ i, d.branch s = .noChange ∧ d.children[s.oldIndex]? = some i ∧
        d.newApps[s.newIndex]? = some i.app ∧
        t = { s with oldIndex := s.oldIndex + 1, newIndex := s.newIndex + 1 }) ∨
      (∃ i, (d.branch s = .removed ∨ d.branch s = .movedAway) ∧ d.children[s.oldIndex]? = some i ∧
        t = { s with removedActors := s.removedActors ++ [i], oldIndex := s.oldIndex + 1 }) ∨
      ∃ app pos, (d.branch s = .added ∧ pos = s.newIndex ∨
          d.branch s = .movedHere ∧ pos = s.newIndex + s.removedActors.length) ∧
        d.newApps[s.newIndex]? = some app ∧
        t = { s with addedItems := s.addedItems ++ [⟨app, pos⟩], newIndex := s.newIndex + 1 } := by
  obtain ⟨hmore, hbody⟩ := h
  unfold body at hbody
  cases hbranch : d.branch s with
  | noChange =>
    rw [hbranch] at hbody
    have heq := branch_noChange hbranch
    have hlt : s.oldIndex < d.oldApps.length := by
      by_contra hge
      rw [List.getElem?_eq_none (Nat.le_of_not_lt hge)] at heq
      have hnew := List.getElem?_eq_none_iff.mp heq.symm
      unfold More at hmore
      omega
    rw [oldApps_length] at hlt
    have hget := List.getElem?_eq_getElem hlt
    rw [oldApps_getElem?, hget] at heq
    exact .inl ⟨_, rfl, hget, heq.symm, (Option.some.inj hbody).symm⟩
  | removed =>
    rw [hbranch] at hbody
    obtain ⟨i, hi, ht⟩ := removeOld_eq_some hbody
    exact .inr (.inl ⟨i, .inl rfl, hi, ht⟩)
  | movedAway =>
    rw [hbranch] at hbody
    obtain ⟨i, hi, ht⟩ := removeOld_eq_some hbody
    exact .inr (.inl ⟨i, .inr rfl, hi, ht⟩)
  | added =>
    rw [hbranch] at hbody
    obtain ⟨app, happ, ht⟩ := addNew_eq_some hbody
    exact .inr (.inr ⟨app, _, .inl ⟨rfl, rfl⟩, happ, ht⟩)
  | movedHere =>
    rw [hbranch] at hbody
    obtain ⟨app, happ, ht⟩ := addNew_eq_some hbody
    exact .inr (.inr ⟨app, _, .inr ⟨rfl, rfl⟩, happ, ht⟩)

/-! ## The comparison ends -/

/-- The items met are kept or removed; the apps of those kept and of those added are the wanted apps
that were met. -/
structure Inv (d : Dash α) (s : Loop α) : Prop where
  old_le : s.oldIndex ≤ d.children.length
  new_le : s.newIndex ≤ d.newApps.length
  removed : s.removedActors.Sublist (d.children.take s.oldIndex)
  count : (d.kept s).length + s.removedActors.length = s.oldIndex
  apps : ((d.kept s).map Item.app ++ s.addedItems.map AddedItem.app).Perm (d.newApps.take s.newIndex)

theorem kept_noChange (h : d.Inv s) (hi : d.children[s.oldIndex]? = some i) :
    d.kept { s with oldIndex := s.oldIndex + 1, newIndex := s.newIndex + 1 } = d.kept s ++ [i] := by
  have hnot : i ∉ s.removedActors := fun hmem => not_mem_take hi (h.removed.subset hmem)
  unfold kept
  rw [take_succ_of_getElem? hi, List.filter_append]
  congr 1
  exact List.filter_cons_of_pos (by simpa using hnot)

theorem kept_remove (hi : d.children[s.oldIndex]? = some i) :
    d.kept { s with removedActors := s.removedActors ++ [i], oldIndex := s.oldIndex + 1 } = d.kept s := by
  unfold kept
  dsimp only
  rw [take_succ_of_getElem? hi, List.filter_append]
  have hlast : [i].filter (· ∉ s.removedActors ++ [i]) = [] := by simp
  rw [hlast, List.append_nil]
  apply List.filter_congr
  intro j hj
  have hne : j ≠ i := fun heq => not_mem_take hi (heq ▸ hj)
  simp [hne]

theorem Inv.start (d : Dash α) : d.Inv .start := by
  constructor <;> simp [Loop.start, kept]

theorem Inv.turn (h : d.Inv s) (hturn : d.Turn s t) : d.Inv t := by
  obtain ⟨i, -, hi, hnew, rfl⟩ | ⟨i, -, hi, rfl⟩ | ⟨app, pos, -, hnew, rfl⟩ := turn_cases hturn
  · have hkept := kept_noChange h hi
    refine ⟨(List.getElem?_eq_some_iff.mp hi).1, (List.getElem?_eq_some_iff.mp hnew).1, ?_, ?_, ?_⟩
    · dsimp only
      rw [take_succ_of_getElem? hi]
      exact h.removed.trans (List.sublist_append_left _ _)
    · rw [hkept, List.length_append, List.length_singleton]
      have := h.count
      dsimp only
      omega
    · rw [hkept]
      dsimp only
      rw [take_succ_of_getElem? hnew, List.map_append, List.map_singleton, List.append_assoc]
      exact ((List.Perm.append_left _ List.perm_append_comm).trans
        (List.append_assoc _ _ _ ▸ List.Perm.rfl)).trans (h.apps.append_right [i.app])
  · refine ⟨(List.getElem?_eq_some_iff.mp hi).1, h.new_le, ?_, ?_, ?_⟩
    · dsimp only
      rw [take_succ_of_getElem? hi]
      exact h.removed.append (List.Sublist.refl [i])
    · rw [kept_remove hi]
      dsimp only
      rw [List.length_append, List.length_singleton]
      have := h.count
      omega
    · rw [kept_remove hi]
      exact h.apps
  · refine ⟨h.old_le, (List.getElem?_eq_some_iff.mp hnew).1, h.removed, h.count, ?_⟩
    dsimp only
    rw [take_succ_of_getElem? hnew, List.map_append, ← List.append_assoc]
    exact h.apps.append_right [app]

theorem Inv.of_passes (h : d.Passes s) : d.Inv s := by
  induction h with
  | refl => exact Inv.start d
  | tail _ hturn ih => exact ih.turn hturn

theorem Inv.length_apps (h : d.Inv s) : (d.kept s).length + s.addedItems.length = s.newIndex := by
  have hlength := h.apps.length_eq
  rw [List.length_append, List.length_map, List.length_map, List.length_take_of_le h.new_le] at hlength
  exact hlength

theorem Inv.not_mem_kept (h : d.Inv s) (happ : d.newApps[s.newIndex]? = some app) :
    app ∉ (d.kept s).map Item.app := by
  intro hmem
  have hnodup := (newApps_nodup d).sublist (List.take_sublist (s.newIndex + 1) d.newApps)
  rw [take_succ_of_getElem? happ] at hnodup
  exact List.disjoint_of_nodup_append hnodup
    (h.apps.subset (List.mem_append_left _ hmem)) (List.mem_singleton_self app)

theorem Inv.removed_of_mem (h : d.Inv s) (happ : d.newApps[s.newIndex]? = some app)
    (hmem : app ∈ d.oldApps) (hend : d.children.length ≤ s.oldIndex) :
    ∃ i ∈ s.removedActors, i.app = app := by
  obtain ⟨i, hi, rfl⟩ := List.mem_map.mp hmem
  refine ⟨i, ?_, rfl⟩
  by_contra hnot
  apply h.not_mem_kept happ
  apply List.mem_map_of_mem
  unfold kept
  rw [List.take_of_length_le hend]
  exact List.mem_filter.mpr ⟨hi, by simpa using hnot⟩

theorem Inv.body_isSome (h : d.Inv s) (hmore : d.More s) : ∃ t, d.body s = some t := by
  cases hbranch : d.branch s with
  | noChange =>
    unfold body
    rw [hbranch]
    exact ⟨_, rfl⟩
  | removed =>
    unfold body
    rw [hbranch]
    apply exists_removeOld
    by_contra hge
    have hnone := List.getElem?_eq_none (Nat.le_of_not_lt hge)
    simp [branch, hnone] at hbranch
    split_ifs at hbranch
  | added =>
    unfold body
    rw [hbranch]
    apply exists_addNew
    by_contra hge
    have hnone := List.getElem?_eq_none (Nat.le_of_not_lt hge)
    simp [branch, hnone] at hbranch
    split_ifs at hbranch
  | movedHere =>
    unfold body
    rw [hbranch]
    apply exists_addNew
    by_contra hge
    have hnone := List.getElem?_eq_none (Nat.le_of_not_lt hge)
    have hnext : d.newApps[s.newIndex + 1]? = none := List.getElem?_eq_none (by omega)
    simp [branch, hnone, hnext] at hbranch
    split_ifs at hbranch
  | movedAway =>
    unfold body
    rw [hbranch]
    apply exists_removeOld
    by_contra hge
    have hnone := List.getElem?_eq_none (Nat.le_of_not_lt hge)
    have hlt : s.newIndex < d.newApps.length := by
      unfold More at hmore
      omega
    have hget := List.getElem?_eq_getElem hlt
    -- the app wanted next is in the box, so it was removed
    have hmem : d.newApps[s.newIndex] ∈ d.oldApps := by
      by_contra hnot
      simp [branch, hnone, hget, hnot] at hbranch
    rw [oldApps_length] at hge
    obtain ⟨i, hi, happ⟩ := h.removed_of_mem hget hmem (Nat.le_of_not_lt hge)
    have hany : s.removedActors.any (fun actor => some actor.app == d.newApps[s.newIndex]?) = true := by
      refine List.any_eq_true.mpr ⟨i, hi, ?_⟩
      rw [hget, happ]
      exact beq_self_eq_true _
    simp only [branch, hany, Bool.or_true, if_true] at hbranch
    split_ifs at hbranch

theorem loop_of_inv (fuel : ℕ) : ∀ {s : Loop α}, d.Inv s →
    d.newApps.length - s.newIndex + (d.children.length - s.oldIndex) < fuel →
    ∃ f, d.loop fuel s = some f := by
  induction fuel with
  | zero => intro s _ hlt; omega
  | succ fuel ih =>
    intro s h hlt
    unfold loop
    split
    · next hmore =>
      obtain ⟨t, ht⟩ := h.body_isSome hmore
      have hturn : d.Turn s t := ⟨hmore, ht⟩
      have hinv := h.turn hturn
      rw [ht, Option.bind_some]
      apply ih hinv
      have hold := hinv.old_le
      have hnew := hinv.new_le
      obtain ⟨i, -, -, -, rfl⟩ | ⟨i, -, -, rfl⟩ | ⟨app, pos, -, -, rfl⟩ := turn_cases hturn <;>
        dsimp only at hold hnew ⊢ <;> omega
    · exact ⟨s, rfl⟩

theorem loop_ends (d : Dash α) : ∃ f, d.loop (d.newApps.length + d.children.length + 1) .start = some f :=
  loop_of_inv _ (Inv.start d) (by simp only [Loop.start]; omega)

/-! ## The states passed and the last one -/

theorem leads_of_loop (fuel : ℕ) : ∀ {s : Loop α}, d.loop fuel s = some f →
    Relation.ReflTransGen d.Turn s f ∧ ¬d.More f := by
  induction fuel with
  | zero => intro s h; cases h
  | succ fuel ih =>
    intro s h
    unfold loop at h
    split at h
    · next hmore =>
      obtain ⟨t, ht, hloop⟩ := Option.bind_eq_some_iff.mp h
      obtain ⟨hleads, hend⟩ := ih hloop
      exact ⟨.head ⟨hmore, ht⟩ hleads, hend⟩
    · next hmore =>
      cases h
      exact ⟨.refl, hmore⟩

theorem leads_of_passes (hloop : d.loop fuel .start = some f) (h : d.Passes s) :
    Relation.ReflTransGen d.Turn s f := by
  suffices ∃ n, d.loop n s = some f by
    obtain ⟨n, hn⟩ := this
    exact (leads_of_loop n hn).1
  induction h with
  | refl => exact ⟨fuel, hloop⟩
  | tail _ hturn ih =>
    obtain ⟨n, hn⟩ := ih
    cases n with
    | zero => cases hn
    | succ n =>
      unfold loop at hn
      rw [if_pos hturn.1, hturn.2, Option.bind_some] at hn
      exact ⟨n, hn⟩

theorem removed_iff (hinv : d.Inv s) (h : Relation.ReflTransGen d.Turn s f)
    (hi : i ∈ d.children.take s.oldIndex) : i ∈ f.removedActors ↔ i ∈ s.removedActors := by
  induction h using Relation.ReflTransGen.head_induction_on with
  | refl => exact Iff.rfl
  | head hturn _ ih =>
    have ih := ih (hinv.turn hturn)
    obtain ⟨j, -, -, -, rfl⟩ | ⟨j, -, hj, rfl⟩ | ⟨app, pos, -, -, rfl⟩ := turn_cases hturn
    · exact ih (List.take_subset_take_left _ (Nat.le_succ _) hi)
    · have hne : i ≠ j := fun heq => not_mem_take hj (heq ▸ hi)
      rw [ih (List.take_subset_take_left _ (Nat.le_succ _) hi)]
      simp [hne]
    · exact ih hi

theorem mem_kept_of_leads (hinv : d.Inv s) (h : Relation.ReflTransGen d.Turn s f)
    (hi : i ∈ d.kept s) : i ∉ f.removedActors := by
  obtain ⟨htake, hnot⟩ := List.mem_filter.mp hi
  rw [decide_eq_true_eq] at hnot
  exact fun hmem => hnot ((removed_iff hinv h htake).mp hmem)

/-! ## Where the created items stand -/

/-- The box so far is its first `g` children among the created items, and the rest of it. Unless every
item was created at its own index, one of these children is removed. -/
def Shape (d : Dash α) (s : Loop α) : Prop :=
  ∃ head g, d.boxAfter s = head ++ (d.box.drop g).map .child ∧
    head.Perm (s.addedItems.map (fun a => .created a.app) ++ (d.box.take g).map .child) ∧
    g ≤ s.oldIndex ∧
    (∀ last, head.getLast? = some last → ∃ a ∈ s.addedItems, last = .created a.app) ∧
    (d.OwnIndices s → g ≤ (d.kept s).length) ∧
    (¬d.OwnIndices s → ∃ i ∈ s.removedActors, i ∈ d.children.take g)

theorem Inv.length_head (hinv : d.Inv s) {head : List (Slot α)} {g : ℕ}
    (hperm : head.Perm (s.addedItems.map (fun a => .created a.app) ++ (d.box.take g).map .child))
    (hg : g ≤ s.oldIndex) : head.length = s.addedItems.length + g := by
  have hold := hinv.old_le
  have hboxle := d.children_length_le
  have hlength := hperm.length_eq
  rwa [List.length_append, List.length_map, List.length_map, List.length_take_of_le (by omega)] at hlength

theorem Shape.start (d : Dash α) : d.Shape .start := by
  refine ⟨[], 0, ?_, ?_, Nat.le_refl _, ?_, fun _ => Nat.zero_le _, fun hnot => ?_⟩
  · simp [boxAfter, Loop.start]
  · simp [Loop.start]
  · simp
  · exact absurd (fun a ha => absurd ha List.not_mem_nil) hnot

theorem Shape.add (hinv : d.Inv s) (h : d.Shape s) (happ : d.newApps[s.newIndex]? = some app)
    (hpos : pos = s.newIndex ∨ pos = s.newIndex + s.removedActors.length) :
    d.Shape { s with addedItems := s.addedItems ++ [⟨app, pos⟩], newIndex := s.newIndex + 1 } := by
  obtain ⟨head, g, hbox, hperm, hg, hlast, hown, hother⟩ := h
  have hplaced := hinv.length_apps
  have hcount := hinv.count
  have hold := hinv.old_le
  have hboxle := d.children_length_le
  have hlength := hinv.length_head hperm hg
  -- an item that is created elsewhere moves here, behind what was removed
  have hmoved : d.OwnIndices s →
      ¬d.OwnIndices { s with addedItems := s.addedItems ++ [⟨app, pos⟩], newIndex := s.newIndex + 1 } →
      pos = s.oldIndex + s.addedItems.length ∧ ∃ i, i ∈ s.removedActors := by
    intro hyes hnot
    have hne : pos ≠ s.newIndex := by
      intro heq
      apply hnot
      intro a ha
      obtain ha | ha := List.mem_append.mp ha
      · exact hyes a ha
      · rw [List.mem_singleton.mp ha, heq]
        exact happ
    refine ⟨by omega, List.exists_mem_of_ne_nil _ fun hnil => ?_⟩
    rw [hnil, List.length_nil] at hpos
    omega
  by_cases hlt : pos < head.length
  · -- in front of an item created earlier
    refine ⟨head.take pos ++ .created app :: head.drop pos, g, ?_, ?_, hg, ?_, ?_, ?_⟩
    · rw [boxAfter_append, insertChildAtIndex, hbox]
      dsimp only
      rw [List.take_append_of_le_length (Nat.le_of_lt hlt),
        List.drop_append_of_le_length (Nat.le_of_lt hlt), List.append_assoc, List.cons_append]
    · dsimp only
      rw [List.map_append, List.map_singleton, List.append_assoc, List.singleton_append]
      refine List.perm_middle.trans (.trans (.cons _ ?_) List.perm_middle.symm)
      rw [List.take_append_drop]
      exact hperm
    · intro last hget
      have hdrop : head.drop pos ≠ [] := by
        intro hnil
        have := List.drop_eq_nil_iff.mp hnil
        omega
      rw [List.getLast?_append_of_ne_nil _ (List.cons_ne_nil _ _), List.getLast?_cons_of_ne_nil hdrop,
        List.getLast?_drop, if_neg (by omega)] at hget
      obtain ⟨a, ha, rfl⟩ := hlast last hget
      exact ⟨a, List.mem_append_left _ ha, rfl⟩
    · intro hall
      exact hown (pos_eq_of_own happ hall).1
    · intro hnot
      by_cases hyes : d.OwnIndices s
      · have := (hmoved hyes hnot).1
        omega
      · exact hother hyes
  · have hdrop : d.box.drop (g + (pos - head.length)) = (d.box.drop g).drop (pos - head.length) := by
      rw [List.drop_drop]
    refine ⟨head ++ ((d.box.drop g).take (pos - head.length)).map .child ++ [.created app],
      g + (pos - head.length), ?_, ?_, ?_, ?_, ?_, ?_⟩
    · rw [boxAfter_append, insertChildAtIndex, hbox, hdrop]
      dsimp only
      rw [List.take_append, List.drop_append, List.take_of_length_le (Nat.le_of_not_lt hlt),
        List.drop_of_length_le (Nat.le_of_not_lt hlt), List.map_take, List.map_drop]
      simp
    · dsimp only
      rw [List.map_append, List.map_singleton, List.take_add, List.map_append, List.append_assoc,
        List.append_assoc]
      refine (hperm.append_right _).trans ?_
      rw [List.append_assoc]
      refine List.Perm.append_left _ ?_
      rw [← List.append_assoc]
      exact List.perm_append_comm
    · dsimp only
      omega
    · intro last hget
      rw [List.getLast?_concat] at hget
      exact ⟨⟨app, pos⟩, List.mem_append_right _ (List.mem_singleton_self _), (Option.some.inj hget).symm⟩
    · intro hall
      obtain ⟨hyes, heq⟩ := pos_eq_of_own happ hall
      have := hown hyes
      show g + (pos - head.length) ≤ (d.kept s).length
      omega
    · intro hnot
      by_cases hyes : d.OwnIndices s
      · obtain ⟨heq, i, hi⟩ := hmoved hyes hnot
        refine ⟨i, hi, ?_⟩
        have hlast : g + (pos - head.length) = s.oldIndex := by omega
        rw [hlast]
        exact hinv.removed.subset hi
      · obtain ⟨i, hi, hig⟩ := hother hyes
        exact ⟨i, hi, List.take_subset_take_left _ (Nat.le_add_right _ _) hig⟩

theorem Shape.turn (hinv : d.Inv s) (h : d.Shape s) (hturn : d.Turn s t) : d.Shape t := by
  obtain ⟨i, -, hi, -, rfl⟩ | ⟨i, -, hi, rfl⟩ | ⟨app, pos, hpos, happ, rfl⟩ := turn_cases hturn
  · obtain ⟨head, g, hbox, hperm, hg, hlast, hown, hother⟩ := h
    refine ⟨head, g, hbox, hperm, Nat.le_succ_of_le hg, hlast, fun hall => ?_, hother⟩
    rw [kept_noChange hinv hi, List.length_append]
    exact Nat.le_add_right_of_le (hown hall)
  · obtain ⟨head, g, hbox, hperm, hg, hlast, hown, hother⟩ := h
    refine ⟨head, g, hbox, hperm, Nat.le_succ_of_le hg, hlast, fun hall => ?_, fun hnot => ?_⟩
    · rw [kept_remove hi]
      exact hown hall
    · obtain ⟨j, hj, hjg⟩ := hother hnot
      exact ⟨j, List.mem_append_left _ hj, hjg⟩
  · exact h.add hinv happ (hpos.imp (·.2) (·.2))

theorem Shape.of_passes (h : d.Passes s) : d.Shape s := by
  induction h with
  | refl => exact Shape.start d
  | tail hpasses hturn ih => exact ih.turn (Inv.of_passes hpasses) hturn

/-! ## An index is right exactly if it fits -/

def front (d : Dash α) (s f : Loop α) (pos : ℕ) : List α :=
  ((d.boxAfter s).take pos).filterMap (Slot.shows f.removedActors)

def behind (d : Dash α) (s f : Loop α) (pos : ℕ) : List α :=
  ((d.boxAfter s).drop pos).filterMap (Slot.shows f.removedActors)

theorem shows_map_child (l : List (Child α)) (removedActors : List (Item α)) :
    (l.map Slot.child).filterMap (Slot.shows removedActors) =
      (l.filterMap Child.item?).filterMap (Item.shows removedActors) := by
  rw [List.filterMap_map, List.filterMap_filterMap]
  rfl

theorem shows_map_created (l : List (AddedItem α)) (removedActors : List (Item α)) :
    (l.map fun a => Slot.created a.app).filterMap (Slot.shows removedActors) = l.map AddedItem.app := by
  rw [List.filterMap_map, ← List.filterMap_eq_map]
  rfl

theorem shows_take (hinv : d.Inv s) (h : Relation.ReflTransGen d.Turn s f)
    (hstay : ∀ i ∈ d.kept s, i.animatingOut = false) {m : ℕ} (hm : m ≤ s.oldIndex) :
    (d.children.take m).filterMap (Item.shows f.removedActors) =
      ((d.children.take m).filter (· ∉ s.removedActors)).map Item.app := by
  rw [← List.filterMap_eq_map, List.filterMap_filter]
  apply List.filterMap_congr
  intro i hi
  have htake : i ∈ d.children.take s.oldIndex := List.take_subset_take_left _ hm hi
  unfold Item.shows
  have hiff := removed_iff hinv h htake
  by_cases hremoved : i ∈ s.removedActors
  · simp [hremoved, hiff.mpr hremoved]
  · have hkept : i ∈ d.kept s := List.mem_filter.mpr ⟨htake, by simpa using hremoved⟩
    have hnot : i ∉ f.removedActors := fun hmem => hremoved (hiff.mp hmem)
    simp [hremoved, hnot, hstay i hkept]

theorem prefix_filter_take {m : ℕ} (hm : m ≤ s.oldIndex) :
    (d.children.take m).filter (· ∉ s.removedActors) <+: d.kept s :=
  (List.take_prefix_take_left hm).filter _

theorem nodup_kept (d : Dash α) (s : Loop α) : (d.kept s).Nodup :=
  (d.children_nodup.sublist (List.take_sublist _ _)).filter _

theorem length_front {head : List (Slot α)} {g pos : ℕ}
    (hbox : d.boxAfter s = head ++ (d.box.drop g).map .child)
    (hperm : head.Perm (s.addedItems.map (fun a => .created a.app) ++ (d.box.take g).map .child))
    (hlength : head.length = s.addedItems.length + g) (hpos : head.length ≤ pos) :
    (d.front s f pos).length = s.addedItems.length +
      (((d.box.take (pos - s.addedItems.length)).filterMap Child.item?).filterMap
        (Item.shows f.removedActors)).length := by
  have hsplit : pos - s.addedItems.length = g + (pos - head.length) := by omega
  have hhead := (hperm.filterMap (Slot.shows f.removedActors)).length_eq
  rw [List.filterMap_append, shows_map_created, shows_map_child, List.length_append, List.length_map] at hhead
  unfold front
  rw [hbox, List.take_append, List.take_of_length_le hpos, List.filterMap_append, List.length_append, hhead,
    hsplit, List.take_add, ← List.map_take, shows_map_child, List.filterMap_append, List.filterMap_append,
    List.length_append, Nat.add_assoc]

theorem length_front_of_fits (hinv : d.Inv s) (hshape : d.Shape s)
    (h : Relation.ReflTransGen d.Turn s f) (hstay : ∀ i ∈ d.kept s, i.animatingOut = false)
    (hpos : d.branch s = .added ∧ pos = s.newIndex ∨
      d.branch s = .movedHere ∧ pos = s.newIndex + s.removedActors.length)
    (hfits : d.FitsAt s) : (d.front s f pos).length = s.newIndex := by
  obtain ⟨head, g, hbox, hperm, hg, -, hown, -⟩ := hshape
  have hplaced := hinv.length_apps
  have hcount := hinv.count
  have hold := hinv.old_le
  have hboxle := d.children_length_le
  have hlength := hinv.length_head hperm hg
  unfold FitsAt at hfits
  obtain ⟨hbranch, rfl⟩ | ⟨hbranch, rfl⟩ := hpos
  · rw [hbranch] at hfits
    obtain ⟨hleading, hyes⟩ := hfits
    have hle := hown hyes
    rw [length_front hbox hperm hlength (by omega)]
    have hdiff : s.newIndex - s.addedItems.length = (d.kept s).length := by omega
    have htake := List.prefix_iff_eq_take.mp hleading
    rw [List.length_map] at htake
    have hitems : ((d.kept s).map Child.item).filterMap Child.item? = d.kept s := by
      rw [List.filterMap_map]
      exact List.filterMap_some
    obtain ⟨m, hm, hchildren, -⟩ := exists_take_children d (d.kept s).length
    rw [← htake, hitems] at hchildren
    have hall : (d.kept s).filter (· ∉ s.removedActors) = d.kept s :=
      List.filter_eq_self.mpr fun i hi => (List.mem_filter.mp hi).2
    rw [hdiff, ← htake, hitems, hchildren, shows_take hinv h hstay (by omega), List.length_map,
      ← hchildren, hall]
    omega
  · rw [hbranch] at hfits
    rw [length_front hbox hperm hlength (by omega)]
    have hdiff : s.newIndex + s.removedActors.length - s.addedItems.length = s.oldIndex := by omega
    obtain ⟨m, hm, htake, -⟩ := exists_take_children d s.oldIndex
    rw [hdiff, htake, shows_take hinv h hstay hm, List.length_map]
    have hsub : d.kept s ⊆ (d.children.take m).filter (· ∉ s.removedActors) := by
      intro i hi
      refine List.mem_filter.mpr ⟨?_, (List.mem_filter.mp hi).2⟩
      rw [← htake]
      exact List.mem_filterMap.mpr ⟨.item i, hfits i hi, rfl⟩
    have hge := ((nodup_kept d s).subperm hsub).length_le
    have hle := (prefix_filter_take (d := d) hm).length_le
    omega

theorem fits_of_length_front (hinv : d.Inv s) (hshape : d.Shape s)
    (h : Relation.ReflTransGen d.Turn s f) (hstay : ∀ i ∈ d.kept s, i.animatingOut = false)
    (hpos : d.branch s = .added ∧ pos = s.newIndex ∨
      d.branch s = .movedHere ∧ pos = s.newIndex + s.removedActors.length)
    (hbehind : ∀ a ∈ s.addedItems, a.app ∉ d.behind s f pos)
    (hfront : (d.front s f pos).length = s.newIndex) : d.FitsAt s := by
  obtain ⟨head, g, hbox, hperm, hg, hlast, -, hother⟩ := hshape
  have hplaced := hinv.length_apps
  have hcount := hinv.count
  have hold := hinv.old_le
  have hboxle := d.children_length_le
  have hlength := hinv.length_head hperm hg
  unfold FitsAt
  obtain ⟨hbranch, rfl⟩ | ⟨hbranch, rfl⟩ := hpos
  · rw [hbranch]
    dsimp only
    have hle : head.length ≤ s.newIndex := by
      by_contra hlt
      have hdrop : (head.drop s.newIndex).getLast? = head.getLast? := by
        rw [List.getLast?_drop, if_neg hlt]
      have hne : head ≠ [] := by
        rintro rfl
        exact hlt (Nat.zero_le _)
      obtain ⟨a, ha, hcreated⟩ := hlast _ (List.getLast?_eq_some_getLast hne)
      apply hbehind a ha
      rw [List.getLast?_eq_some_getLast hne, hcreated] at hdrop
      refine List.mem_filterMap.mpr ⟨.created a.app, ?_, rfl⟩
      rw [hbox, List.drop_append_of_le_length (by omega)]
      exact List.mem_append_left _ (List.mem_of_getLast? hdrop)
    rw [length_front hbox hperm hlength hle] at hfront
    have hdiff : s.newIndex - s.addedItems.length = (d.kept s).length := by omega
    obtain ⟨m, hm, htake, hmlength⟩ := exists_take_children d (d.kept s).length
    rw [hdiff, htake, shows_take hinv h hstay (by omega), List.length_map] at hfront
    -- as many items stay as there are children, so these are all
    have hfilter := prefix_filter_take (d := d) (s := s) (m := m) (by omega)
    have heq := hfilter.eq_of_length (by omega)
    have hlefilter := List.length_filter_le (fun i => decide (i ∉ s.removedActors)) (d.children.take m)
    have hself : d.children.take m = d.kept s :=
      (List.filter_eq_self.mpr (List.length_filter_eq_length_iff.mp (by omega))).symm.trans heq
    rw [hself] at htake
    have hboxtake := List.length_take_le (d.kept s).length d.box
    have hfilterMap := List.length_filterMap_le Child.item? (d.box.take (d.kept s).length)
    have hitems := map_item_of_length (l := d.box.take (d.kept s).length) (by rw [htake] at *; omega)
    rw [htake] at hitems
    refine ⟨hitems ▸ List.take_prefix _ _, ?_⟩
    by_contra hnot
    obtain ⟨i, hi, hig⟩ := hother hnot
    have hmem : i ∈ d.kept s := by
      rw [← hself]
      exact List.take_subset_take_left _ (by omega) hig
    have := (List.mem_filter.mp hmem).2
    rw [decide_eq_true_eq] at this
    exact this hi
  · rw [hbranch]
    dsimp only
    rw [length_front hbox hperm hlength (by omega)] at hfront
    have hdiff : s.newIndex + s.removedActors.length - s.addedItems.length = s.oldIndex := by omega
    obtain ⟨m, hm, htake, -⟩ := exists_take_children d s.oldIndex
    rw [hdiff, htake, shows_take hinv h hstay hm, List.length_map] at hfront
    have heq := (prefix_filter_take (d := d) hm).eq_of_length (by omega)
    intro i hi
    rw [← heq] at hi
    have hmem := (List.mem_filter.mp hi).1
    rw [← htake] at hmem
    obtain ⟨c, hc, hci⟩ := List.mem_filterMap.mp hmem
    cases c with
    | item j =>
      cases hci
      exact hc
    | _ => cases hci

/-! ## What is shown in the end -/

def shownIn (d : Dash α) (s f : Loop α) : List α := (d.boxAfter s).filterMap (Slot.shows f.removedActors)

theorem front_append_behind (d : Dash α) (s f : Loop α) (pos : ℕ) :
    d.front s f pos ++ d.behind s f pos = d.shownIn s f := by
  unfold front behind shownIn
  rw [← List.filterMap_append, List.take_append_drop]

theorem shownIn_add (d : Dash α) (s f : Loop α) (app : α) (pos : ℕ) :
    d.shownIn { s with addedItems := s.addedItems ++ [⟨app, pos⟩], newIndex := s.newIndex + 1 } f =
      d.front s f pos ++ app :: d.behind s f pos := by
  unfold shownIn
  rw [boxAfter_append, insertChildAtIndex, List.filterMap_append, List.filterMap_cons]
  rfl

theorem shownIn_sublist (h : Relation.ReflTransGen d.Turn s f) {e : Loop α} :
    (d.shownIn s e).Sublist (d.shownIn f e) := by
  induction h with
  | refl => exact List.Sublist.refl _
  | tail _ hturn ih =>
    refine ih.trans ?_
    obtain ⟨i, -, -, -, rfl⟩ | ⟨i, -, -, rfl⟩ | ⟨app, pos, -, -, rfl⟩ := turn_cases hturn
    · exact List.Sublist.refl _
    · exact List.Sublist.refl _
    · rw [shownIn_add, ← front_append_behind d _ _ pos]
      exact (List.Sublist.refl _).append (List.sublist_cons_self _ _)

theorem boxAfter_perm (hshape : d.Shape s) :
    (d.boxAfter s).Perm (s.addedItems.map (fun a => .created a.app) ++ d.box.map .child) := by
  obtain ⟨head, g, hbox, hperm, -⟩ := hshape
  rw [hbox]
  refine (hperm.append_right _).trans ?_
  rw [List.append_assoc, ← List.map_append, List.take_append_drop]

theorem ends_of_not_more (hinv : d.Inv f) (hend : ¬d.More f) :
    f.newIndex = d.newApps.length ∧ f.oldIndex = d.children.length := by
  unfold More at hend
  have hold := hinv.old_le
  have hnew := hinv.new_le
  rw [oldApps_length] at hend
  omega

theorem shows_children (hinv : d.Inv f) (hend : ¬d.More f) :
    d.children.filterMap (Item.shows f.removedActors) =
      ((d.kept f).filter (!·.animatingOut)).map Item.app := by
  unfold kept
  rw [List.take_of_length_le (Nat.le_of_eq (ends_of_not_more hinv hend).2.symm), ← List.filterMap_eq_map,
    List.filterMap_filter, List.filterMap_filter]
  apply List.filterMap_congr
  intro i _
  unfold Item.shows
  by_cases hremoved : i ∈ f.removedActors
  · simp [hremoved]
  · by_cases hout : i.animatingOut = true
    · simp [hout]
    · simp [hremoved, hout]

theorem stay_of_length (hinv : d.Inv f) (hshape : d.Shape f) (hend : ¬d.More f)
    (hlength : (d.shown f).length = d.newApps.length) : ∀ i ∈ d.kept f, i.animatingOut = false := by
  have hshown := ((boxAfter_perm hshape).filterMap (Slot.shows f.removedActors)).length_eq
  rw [List.filterMap_append, shows_map_created, shows_map_child, List.length_append, List.length_map] at hshown
  have hchildren : d.box.filterMap Child.item? = d.children := rfl
  rw [hchildren, shows_children hinv hend, List.length_map] at hshown
  have hplaced := hinv.length_apps
  rw [(ends_of_not_more hinv hend).1] at hplaced
  have hall : ((d.kept f).filter (!·.animatingOut)).length = (d.kept f).length := by
    unfold shown at hlength
    omega
  intro i hi
  have := List.length_filter_eq_length_iff.mp hall i hi
  simpa using this

theorem kept_subset (hinv : d.Inv s) (h : Relation.ReflTransGen d.Turn s f) (hinvf : d.Inv f)
    (hend : ¬d.More f) : d.kept s ⊆ d.kept f := by
  intro i hi
  refine List.mem_filter.mpr ⟨?_, by simpa using mem_kept_of_leads hinv h hi⟩
  rw [List.take_of_length_le (Nat.le_of_eq (ends_of_not_more hinvf hend).2.symm)]
  exact List.mem_of_mem_take (List.mem_filter.mp hi).1

theorem mem_shownIn (hinv : d.Inv s) (hshape : d.Shape s) (h : Relation.ReflTransGen d.Turn s f)
    (hstay : ∀ i ∈ d.kept s, i.animatingOut = false) (happ : app ∈ d.newApps.take s.newIndex) :
    app ∈ d.shownIn s f := by
  have hmem : app ∈ (s.addedItems.map (fun a : AddedItem α => Slot.created a.app) ++
      d.box.map Slot.child).filterMap (Slot.shows f.removedActors) := by
    rw [List.filterMap_append, shows_map_created, shows_map_child]
    obtain hkept | hadded := List.mem_append.mp (hinv.apps.symm.subset happ)
    · obtain ⟨i, hi, rfl⟩ := List.mem_map.mp hkept
      have hchild := List.mem_of_mem_take (List.mem_filter.mp hi).1
      refine List.mem_append_right _ (List.mem_filterMap.mpr ⟨i, hchild, ?_⟩)
      simp [Item.shows, mem_kept_of_leads hinv h hi, hstay i hi]
    · exact List.mem_append_left _ hadded
  exact ((boxAfter_perm hshape).filterMap _).symm.subset hmem

theorem idxOf_lt_of_sublist {l before after : List α} {a : α} (hnodup : l.Nodup)
    (h : (before ++ a :: after).Sublist l) :
    (∀ b ∈ before, l.idxOf b < l.idxOf a) ∧ ∀ b ∈ after, l.idxOf a < l.idxOf b := by
  have hpairwise : l.Pairwise fun x y => l.idxOf x < l.idxOf y := by
    rw [List.pairwise_iff_getElem]
    intro i j hi hj hij
    rw [hnodup.idxOf_getElem, hnodup.idxOf_getElem]
    exact hij
  have hsub := hpairwise.sublist h
  rw [List.pairwise_append, List.pairwise_cons] at hsub
  exact ⟨fun b hb => hsub.2.2 b hb a List.mem_cons_self, hsub.2.1.1⟩

theorem front_of_sublist (hinv : d.Inv s) (hshape : d.Shape s) (h : Relation.ReflTransGen d.Turn s f)
    (hstay : ∀ i ∈ d.kept s, i.animatingOut = false) (happ : d.newApps[s.newIndex]? = some app)
    (hsub : (d.front s f pos ++ app :: d.behind s f pos).Sublist d.newApps) :
    (d.front s f pos).length = s.newIndex ∧ ∀ a ∈ s.addedItems, a.app ∉ d.behind s f pos := by
  have hnodup := newApps_nodup d
  obtain ⟨hfront, hbehind⟩ := idxOf_lt_of_sublist hnodup hsub
  obtain ⟨hlt, hget⟩ := List.getElem?_eq_some_iff.mp happ
  have hidx : d.newApps.idxOf app = s.newIndex := by
    rw [← hget]
    exact hnodup.idxOf_getElem _ hlt
  rw [hidx] at hfront hbehind
  have hmem : ∀ a ∈ d.newApps, (a ∈ d.newApps.take s.newIndex ↔ d.newApps.idxOf a < s.newIndex) :=
    fun a ha => List.mem_take_iff_idxOf_lt ha
  have hsame : (d.front s f pos).Perm (d.newApps.take s.newIndex) := by
    rw [List.perm_ext_iff_of_nodup ((hnodup.sublist hsub).sublist (List.sublist_append_left _ _))
      (hnodup.sublist (List.take_sublist _ _))]
    intro a
    constructor
    · intro ha
      exact (hmem a (hsub.subset (List.mem_append_left _ ha))).mpr (hfront a ha)
    · intro ha
      have hshown := mem_shownIn hinv hshape h hstay ha
      rw [← front_append_behind d _ _ pos] at hshown
      obtain hin | hin := List.mem_append.mp hshown
      · exact hin
      · have hlast := hbehind a hin
        have hfirst := (hmem a (List.mem_of_mem_take ha)).mp ha
        omega
  refine ⟨hsame.length_eq.trans (List.length_take_of_le hinv.new_le), fun a ha hin => ?_⟩
  have htake : a.app ∈ d.newApps.take s.newIndex :=
    hinv.apps.subset (List.mem_append_right _ (List.mem_map_of_mem ha))
  have hlast := hbehind _ hin
  have hfirst := (hmem _ (List.mem_of_mem_take htake)).mp htake
  omega

theorem fitsAt_of_shown (hloop : d.loop fuel .start = some f) (hshown : d.shown f = d.newApps)
    (hpasses : d.Passes s) : d.FitsAt s := by
  have hinv := Inv.of_passes hpasses
  have hleads := leads_of_passes hloop hpasses
  obtain ⟨hlast, hend⟩ := leads_of_loop fuel hloop
  have hinvf := Inv.of_passes hlast
  have hstayf := stay_of_length hinvf (Shape.of_passes hlast) hend (by rw [hshown])
  have hstay : ∀ {t : Loop α}, d.Passes t → ∀ i ∈ d.kept t, i.animatingOut = false :=
    fun ht i hi => hstayf i (kept_subset (Inv.of_passes ht) (leads_of_passes hloop ht) hinvf hend hi)
  by_cases hmore : d.More s
  · obtain ⟨t, hbody⟩ := hinv.body_isSome hmore
    have hturn : d.Turn s t := ⟨hmore, hbody⟩
    have ht : d.Passes t := hpasses.tail hturn
    obtain ⟨i, hbranch, hi, -, rfl⟩ | ⟨i, hbranch, -, rfl⟩ | ⟨app, pos, hpos, happ, rfl⟩ := turn_cases hturn
    · unfold FitsAt
      rw [hbranch]
      intro j hj
      cases hi.symm.trans hj
      apply hstay ht
      rw [kept_noChange hinv hi]
      exact List.mem_append_right _ (List.mem_singleton_self i)
    · unfold FitsAt
      obtain hbranch | hbranch := hbranch <;> rw [hbranch] <;> trivial
    · have hsub := shownIn_sublist (leads_of_passes hloop ht) (e := f)
      rw [shownIn_add] at hsub
      have hall : d.shownIn f f = d.newApps := hshown
      rw [hall] at hsub
      have hshape := Shape.of_passes hpasses
      obtain ⟨hfront, hbehind⟩ := front_of_sublist hinv hshape hleads (hstay hpasses) happ hsub
      exact fits_of_length_front hinv hshape hleads (hstay hpasses) hpos hbehind hfront
  · obtain ⟨hnew, hold⟩ := ends_of_not_more hinv hmore
    have hnone : d.children[s.oldIndex]? = none := List.getElem?_eq_none (Nat.le_of_eq hold.symm)
    have hnone' : d.newApps[s.newIndex]? = none := List.getElem?_eq_none (Nat.le_of_eq hnew.symm)
    have hbranch : d.branch s = .noChange := by
      unfold branch
      rw [oldApps_getElem?, hnone, hnone']
      exact if_pos rfl
    unfold FitsAt
    rw [hbranch]
    intro i hi
    rw [hnone] at hi
    cases hi

/-- No item that stays is animating out, and what is shown is the wanted apps met so far, followed by
the items that have not been met. -/
structure Right (d : Dash α) (f s : Loop α) : Prop where
  stay : ∀ i ∈ d.kept s, i.animatingOut = false
  shown : d.shownIn s f =
    d.newApps.take s.newIndex ++ (d.children.drop s.oldIndex).filterMap (Item.shows f.removedActors)

theorem drop_of_getElem? {β : Type*} {l : List β} {k : ℕ} {b : β} (h : l[k]? = some b) :
    l.drop k = b :: l.drop (k + 1) := by
  obtain ⟨hlt, rfl⟩ := List.getElem?_eq_some_iff.mp h
  exact List.drop_eq_getElem_cons hlt

theorem Right.start (d : Dash α) (f : Loop α) : d.Right f .start := by
  constructor
  · simp [kept, Loop.start]
  · unfold shownIn boxAfter
    simp only [Loop.start, List.foldl_nil, List.take_zero, List.nil_append, List.drop_zero]
    exact shows_map_child d.box f.removedActors

theorem Right.turn (hloop : d.loop fuel .start = some f) (hpasses : d.Passes s)
    (h : d.Right f s) (hfits : d.FitsAt s) (hturn : d.Turn s t) : d.Right f t := by
  have hinv := Inv.of_passes hpasses
  have ht : d.Passes t := hpasses.tail hturn
  have hinvt := Inv.of_passes ht
  have hleadst := leads_of_passes hloop ht
  obtain ⟨i, hbranch, hi, happ, rfl⟩ | ⟨i, -, hi, rfl⟩ | ⟨app, pos, hpos, happ, rfl⟩ := turn_cases hturn
  · have hkept := kept_noChange hinv hi
    have hself : i ∈ d.kept { s with oldIndex := s.oldIndex + 1, newIndex := s.newIndex + 1 } := by
      rw [hkept]
      exact List.mem_append_right _ (List.mem_singleton_self i)
    have hout : i.animatingOut = false := by
      unfold FitsAt at hfits
      rw [hbranch] at hfits
      exact hfits i hi
    refine ⟨fun j hj => ?_, ?_⟩
    · rw [hkept] at hj
      obtain hj | hj := List.mem_append.mp hj
      · exact h.stay j hj
      · rw [List.mem_singleton.mp hj]
        exact hout
    · have hshows : i.shows f.removedActors = some i.app := by
        simp [Item.shows, mem_kept_of_leads hinvt hleadst hself, hout]
      have hshown := h.shown
      rw [drop_of_getElem? hi, List.filterMap_cons_some hshows] at hshown
      dsimp only
      rw [take_succ_of_getElem? happ, List.append_assoc, List.singleton_append]
      exact hshown
  · refine ⟨fun j hj => h.stay j (kept_remove hi ▸ hj), ?_⟩
    have hremoved : i ∈ f.removedActors := by
      refine (removed_iff hinvt hleadst ?_).mpr (List.mem_append_right _ (List.mem_singleton_self i))
      dsimp only
      rw [take_succ_of_getElem? hi]
      exact List.mem_append_right _ (List.mem_singleton_self i)
    have hshows : i.shows f.removedActors = none := if_pos (.inl hremoved)
    have hshown := h.shown
    rw [drop_of_getElem? hi, List.filterMap_cons_none hshows] at hshown
    exact hshown
  · refine ⟨h.stay, ?_⟩
    have hfront := length_front_of_fits hinv (Shape.of_passes hpasses) (leads_of_passes hloop hpasses) h.stay
      hpos hfits
    have hshown := h.shown
    rw [← front_append_behind d _ _ pos] at hshown
    obtain ⟨hbefore, hafter⟩ := List.append_inj hshown (by rw [hfront, List.length_take_of_le hinv.new_le])
    rw [shownIn_add, hbefore, hafter]
    dsimp only
    rw [take_succ_of_getElem? happ, List.append_assoc, List.singleton_append]

theorem Right.of_passes (hloop : d.loop fuel .start = some f) (hfits : d.Fits)
    (h : d.Passes s) : d.Right f s := by
  induction h with
  | refl => exact Right.start d f
  | tail hpasses hturn ih => exact ih.turn hloop hpasses (hfits _ hpasses) hturn

/-- The wanted apps are shown in the end exactly if each turn of the comparison fits. -/
theorem settles_iff (d : Dash α) : d.Settles ↔ d.Fits := by
  constructor
  · rintro ⟨fuel, f, hloop, hshown⟩ s hpasses
    exact fitsAt_of_shown hloop hshown hpasses
  · intro hfits
    obtain ⟨f, hloop⟩ := loop_ends d
    obtain ⟨hlast, hend⟩ := leads_of_loop _ hloop
    obtain ⟨hnew, hold⟩ := ends_of_not_more (Inv.of_passes hlast) hend
    refine ⟨_, f, hloop, ?_⟩
    have hshown := (Right.of_passes hloop hfits hlast).shown
    rw [hnew, hold, List.take_length, List.drop_length, List.filterMap_nil, List.append_nil] at hshown
    exact hshown

def removedBefore : Dash ℕ where
  box := [.item ⟨0, 0, false⟩, .item ⟨1, 1, false⟩]
  getId := toString
  favorites := []
  running := [1, 2]
  actors_nodup := by decide
  favorites_nodup := by decide
  running_nodup := by decide

/-- The new app is put in front of the one that stays. -/
theorem not_settles_removedBefore : ¬removedBefore.Settles := by
  rintro ⟨fuel, f, hloop, hshown⟩
  let gone : Item ℕ := ⟨0, 0, false⟩
  have hfirst : removedBefore.Turn .start ⟨0, 1, [], [gone]⟩ := ⟨.inl (by decide), rfl⟩
  have hsecond : removedBefore.Turn ⟨0, 1, [], [gone]⟩ ⟨1, 2, [], [gone]⟩ := ⟨.inl (by decide), rfl⟩
  have hfits := fitsAt_of_shown hloop hshown (.tail (.tail .refl hfirst) hsecond)
  -- the item that stays is not the first child of the box
  obtain ⟨⟨rest, hbox⟩, -⟩ := hfits
  cases hbox

end Dash
