import GnomeShellMobile.AppFavorites.Writes

/-!
# AppFavorites — taking a change back

The notification that tells of a change has a button to undo it, which writes what is in the map as
well and so depends on the map being loaded again in between.

* **`run_undo`**: the map is as before the change; on a phone nothing is undone.
-/

namespace AppFavorites

/-- The callback of the button. The position is the one at the time of the change, in `s`. -/
def undo (s : State) : Op → State → State
  | .addFavoriteAtPos appId _, t => (removeFavorite t appId).1
  | .removeFavorite appId, t => (addFavorite t appId (s.favorites.idxOf appId)).1
  -- there is no notification
  | .moveFavoriteToPos _ _, t => t

def Op.Notifies (op : Op) : Prop := ∀ appId pos, op ≠ .moveFavoriteToPos appId pos

structure InSync (s : State) : Prop where
  isPhone : s.isPhone = false
  favorites : s.favorites = keysOf (s.stored.filter s.available)

variable {s : State} {appId : String} {ids : List String} {op : Op}

theorem setIds_eq (h : s.isPhone = false) (ids : List String) : setIds s ids = { s with
    stored := ids, favorites := keysOf (ids.filter s.available), nodup := nodup_keysOf _ } := by
  unfold setIds reload
  exact if_neg (by simp [h])

theorem inSync_setIds (h : s.isPhone = false) (ids : List String) : InSync (setIds s ids) := by
  rw [setIds_eq h]
  exact ⟨h, rfl⟩

theorem setIds_favorites (h : s.isPhone = false) (hnodup : ids.Nodup)
    (havailable : ∀ id ∈ ids, s.available id = true) : (setIds s ids).favorites = ids := by
  rw [setIds_eq h]
  show keysOf (ids.filter s.available) = ids
  rw [List.filter_eq_self.mpr havailable, keysOf_eq_self hnodup]

theorem place_perm (ids : List String) (pos : ℤ) (appId : String) :
    (place ids pos appId).Perm (appId :: ids) := by
  unfold place
  split
  · exact List.perm_append_singleton appId ids
  · dsimp only
    generalize min _ ids.length = start
    have hmiddle : (ids.take start ++ appId :: ids.drop start).Perm
        (appId :: (ids.take start ++ ids.drop start)) := List.perm_middle
    rwa [List.take_append_drop] at hmiddle

theorem place_idxOf (hnodup : ids.Nodup) (hmem : appId ∈ ids) :
    place (others ids appId) (ids.idxOf appId) appId = ids := by
  obtain ⟨pre, post, rfl⟩ := List.append_of_mem hmem
  have hnot : appId ∉ pre ++ post := (List.nodup_cons.mp (List.perm_middle.nodup_iff.mp hnodup)).1
  have hothers : others (pre ++ appId :: post) appId = pre ++ post := by
    rw [others, List.filter_append, List.filter_cons_of_neg (by simp), ← List.filter_append]
    exact others_eq_self hnot
  have hindex : (pre ++ appId :: post).idxOf appId = pre.length := by
    rw [List.idxOf_append_of_notMem fun h => hnot (List.mem_append_left _ h), List.idxOf_cons_self]
    rfl
  have hstart : min pre.length (pre ++ post).length = pre.length := by simp
  rw [hothers, hindex, place, if_neg (by omega), if_neg (by omega), Int.toNat_natCast]
  dsimp only
  rw [hstart, List.take_left, List.drop_left]

theorem perform_cases (hop : op.Notifies) (hwritten : (perform s op).2 = true) :
    (∃ appId, op = .removeFavorite appId ∧ appId ∈ s.favorites ∧
      (perform s op).1 = setIds s (others s.favorites appId)) ∨
    ∃ appId pos, op = .addFavoriteAtPos appId pos ∧ appId ∉ s.favorites ∧
      s.available appId = true ∧ (perform s op).1 = setIds s (place s.favorites pos appId) := by
  cases op with
  | addFavoriteAtPos appId pos =>
    have hadded : (addFavorite s appId pos).2 = true := hwritten
    refine .inr ⟨appId, pos, rfl, ?_⟩
    show _ ∧ _ ∧ (addFavorite s appId pos).1 = _
    unfold addFavorite at hadded ⊢
    split at hadded
    · cases hadded
    split at hadded
    · cases hadded
    · next hmem hshown => exact ⟨hmem, not_not.mp hshown, by rw [if_neg hmem, if_neg hshown]⟩
  | removeFavorite appId =>
    have hremoved : (removeFavorite s appId).2 = true := hwritten
    refine .inl ⟨appId, rfl, ?_⟩
    show _ ∧ (removeFavorite s appId).1 = _
    unfold removeFavorite at hremoved ⊢
    split at hremoved
    · cases hremoved
    · next hmem => exact ⟨not_not.mp hmem, congrArg Prod.fst (if_neg hmem)⟩
  | moveFavoriteToPos appId pos => exact absurd rfl (hop appId pos)

/-- **A change is taken back.** -/
theorem InSync.undo_eq (h : InSync s) (hop : op.Notifies) (hwritten : (perform s op).2 = true) :
    (undo s op (perform s op).1).stored = s.favorites ∧
      (undo s op (perform s op).1).favorites = s.favorites := by
  have hshown : ∀ id ∈ s.favorites, s.available id = true := fun id hid => by
    rw [h.favorites, mem_keysOf] at hid
    exact (List.mem_filter.mp hid).2
  suffices hback : ∃ ids, undo s op (perform s op).1 = setIds (setIds s ids) s.favorites by
    obtain ⟨ids, hback⟩ := hback
    rw [hback, setIds_stored, setIds_favorites (inSync_setIds h.isPhone ids).isPhone s.nodup]
    · exact ⟨rfl, rfl⟩
    · rwa [setIds_eq h.isPhone]
  rcases perform_cases hop hwritten with ⟨appId, rfl, hmem, heq⟩ | ⟨appId, pos, rfl, hmem, hnew, heq⟩
  · have hfavorites : (setIds s (others s.favorites appId)).favorites = others s.favorites appId :=
      setIds_favorites h.isPhone (s.nodup.filter _) fun id hid => hshown id (List.mem_of_mem_filter hid)
    have havailable : (setIds s (others s.favorites appId)).available appId = true := by
      rw [setIds_eq h.isPhone]
      exact hshown appId hmem
    refine ⟨others s.favorites appId, ?_⟩
    rw [heq, undo, addFavorite, hfavorites, if_neg (notMem_others _ _),
      if_neg (not_not.mpr havailable), place_idxOf s.nodup hmem]
  · have hperm := place_perm s.favorites pos appId
    have hfavorites : (setIds s (place s.favorites pos appId)).favorites = place s.favorites pos appId :=
      setIds_favorites h.isPhone (hperm.nodup_iff.mpr (List.nodup_cons.mpr ⟨hmem, s.nodup⟩))
        fun id hid => (List.mem_cons.mp (hperm.mem_iff.mp hid)).elim (fun heq => heq ▸ hnew) (hshown id)
    have hothers : (place s.favorites pos appId).filter (· ≠ appId) = s.favorites := others_place hmem pos
    refine ⟨place s.favorites pos appId, ?_⟩
    rw [heq, undo, removeFavorite, hfavorites, if_neg (not_not.mpr (mem_place _ _ _)), hothers]

theorem undo_phone (h : s.isPhone = true) (hop : op.Notifies) (hwritten : (perform s op).2 = true) :
    undo s op (perform s op).1 = (perform s op).1 := by
  have hkept : ∀ ids, (setIds s ids).favorites = s.favorites := by
    intro ids
    unfold setIds reload
    rw [if_pos h]
  rcases perform_cases hop hwritten with ⟨appId, rfl, hmem, heq⟩ | ⟨appId, pos, rfl, hmem, -, heq⟩
  · rw [heq, undo, addFavorite, hkept, if_pos hmem]
  · rw [heq, undo, removeFavorite, hkept, if_pos hmem]

theorem InSync.perform (h : InSync s) (op : Op) : InSync (perform s op).1 := by
  have hadd : ∀ t, InSync t → ∀ appId pos, InSync (addFavorite t appId pos).1 := by
    intro t ht appId pos
    unfold addFavorite
    split
    · exact ht
    split
    · exact ht
    · exact inSync_setIds ht.isPhone _
  have hremove : ∀ appId, InSync (removeFavorite s appId).1 := by
    intro appId
    unfold removeFavorite
    split
    · exact h
    · exact inSync_setIds h.isPhone _
  cases op with
  | addFavoriteAtPos appId pos => exact hadd s h appId pos
  | removeFavorite appId => exact hremove appId
  | moveFavoriteToPos appId pos => exact hadd _ (hremove appId) appId pos

/-- After any changes, a further one that is taken back leaves the map as it was, in the setting as
well; on a phone the button does nothing. -/
theorem run_undo (available : String → Bool) (stored : List String) (ops : List Op) {op : Op}
    (hop : op.Notifies) :
    (let s := ops.foldl (fun s op => (perform s op).1) (load false available stored)
     (perform s op).2 = true → (undo s op (perform s op).1).stored = s.favorites ∧
       (undo s op (perform s op).1).favorites = s.favorites) ∧
    ∀ s : State, s.isPhone = true → (perform s op).2 = true →
      undo s op (perform s op).1 = (perform s op).1 := by
  refine ⟨?_, fun s hphone hwritten => undo_phone hphone hop hwritten⟩
  have hinv : ∀ s, InSync s → InSync (ops.foldl (fun s op => (perform s op).1) s) := by
    induction ops with
    | nil => exact fun s h => h
    | cons first ops ih => exact fun s h => ih _ (h.perform first)
  have hload : InSync (load false available stored) :=
    inSync_setIds (s := { stored, isPhone := false, available }) rfl stored
  exact (hinv _ hload).undo_eq hop

theorem run_undo_middle :
    let s := load false (· ≠ "gone.desktop") ["a.desktop", "gone.desktop", "b.desktop", "c.desktop"]
    (undo s (.removeFavorite "b.desktop") (perform s (.removeFavorite "b.desktop")).1).stored =
      ["a.desktop", "b.desktop", "c.desktop"] :=
  ((run_undo (· ≠ "gone.desktop") ["a.desktop", "gone.desktop", "b.desktop", "c.desktop"] []
    (show Op.Notifies (.removeFavorite "b.desktop") from nofun)).1 (by decide)).1

end AppFavorites
