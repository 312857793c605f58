import GnomeShellMobile.NotificationDaemon.Gtk

/-!
# NotificationDaemon — the notifications that are kept

* `Core`: the lists and the maps of the sources agree, but for notifications that are being added.
* `Becomes`: what a step does when it changes the list of one source only.
* `Core.release`, `Core.evict`, `Core.addNotification`, `Core.destroySource`: one rule for each of the
  functions that change a source.
-/

namespace NotificationDaemon.Gtk

variable {s t u : State} {src n : ℕ} {w l l' : List ℕ}

/-- What holds of the objects, while the notifications `w` are in the map of their source and not in
its list. -/
structure Core (s : State) (w : List ℕ) : Prop where
  registered : ∀ appId src, s.sources.get? appId = some src →
    src < s.createdSources ∧ (s.source src).appId = appId
  byId : ∀ src, (s.source src).byId.entries =
    ((s.source src).notifications ++ w.filter fun n => (s.notification n).source = src).map
      fun n => ((s.notification n).id, n)
  own : ∀ src, ∀ n ∈ (s.source src).notifications, n < s.created ∧ (s.notification n).source = src
  taken : ∀ src, ∀ n ∈ (s.source src).notifications,
    s.accepts (s.notification n).serialized = true ∧ (s.notification n).id ∉ inherited
  room : ∀ src, (s.source src).notifications.length ≤ maxNotificationsPerSource
  kept : ∀ src, (s.source src).notifications ≠ [] →
    s.sources.get? (s.source src).appId = some src

/-- From `s` to `t` no object but `src` changes, and `src` is of the same app. -/
structure Touches (s t : State) (src : ℕ) : Prop where
  sources : t.sources = s.sources
  createdSources : t.createdSources = s.createdSources
  notification : t.notification = s.notification
  created : t.created = s.created
  accepts : t.accepts = s.accepts
  isLoading : t.isLoading = s.isLoading
  last : t.last = s.last
  other : ∀ src', src' ≠ src → t.source src' = s.source src'
  appId : (t.source src).appId = (s.source src).appId
  inDestruction : (t.source src).inDestruction = (s.source src).inDestruction

/-- The list of `src` becomes `l`, and nothing else does. -/
structure Becomes (s t : State) (src : ℕ) (l : List ℕ) : Prop extends Touches s t src where
  notificationPending : (t.source src).notificationPending = (s.source src).notificationPending
  had : (t.source src).had = (s.source src).had
  notifications : (t.source src).notifications = l

theorem Touches.refl (s : State) (src : ℕ) : Touches s s src :=
  ⟨rfl, rfl, rfl, rfl, rfl, rfl, rfl, fun _ _ => rfl, rfl, rfl⟩

theorem Touches.trans (h : Touches s t src) (h' : Touches t u src) : Touches s u src where
  sources := h'.sources.trans h.sources
  createdSources := h'.createdSources.trans h.createdSources
  notification := h'.notification.trans h.notification
  created := h'.created.trans h.created
  accepts := h'.accepts.trans h.accepts
  isLoading := h'.isLoading.trans h.isLoading
  last := h'.last.trans h.last
  other src' hsrc := (h'.other src' hsrc).trans (h.other src' hsrc)
  appId := h'.appId.trans h.appId
  inDestruction := h'.inDestruction.trans h.inDestruction

theorem Becomes.refl (s : State) (src : ℕ) : Becomes s s src (s.source src).notifications :=
  ⟨Touches.refl s src, rfl, rfl, rfl⟩

theorem Becomes.trans (h : Becomes s t src l) (h' : Becomes t u src l') : Becomes s u src l' :=
  ⟨h.toTouches.trans h'.toTouches, h'.notificationPending.trans h.notificationPending,
    h'.had.trans h.had, h'.notifications⟩

@[simp] theorem setSource_self (s : State) (src : ℕ) (source : Source) :
    (s.setSource src source).source src = source := Function.update_self ..

theorem setSource_other (s : State) {src src' : ℕ} (source : Source) (h : src' ≠ src) :
    (s.setSource src source).source src' = s.source src' := Function.update_of_ne h ..

theorem touches_setSource {s : State} {source : Source} (happId : source.appId = (s.source src).appId)
    (hdestruction : source.inDestruction = (s.source src).inDestruction) :
    Touches s (s.setSource src source) src := by
  refine ⟨rfl, rfl, rfl, rfl, rfl, rfl, rfl, fun src' hne => setSource_other _ _ hne, ?_, ?_⟩
  · rw [setSource_self]
    exact happId
  · rw [setSource_self]
    exact hdestruction

/-! ## Writing -/

section Save

variable (s)

def State.serialization : List (String × List (String × Serialized)) :=
  s.sources.entries.map fun e => ((s.source e.2).appId, s.serialize e.2)

def Saved : Prop := s.isLoading = false → s.stored = s.serialization

theorem saved_saveNotifications : Saved s.saveNotifications := by
  intro hloading
  rw [State.saveNotifications] at hloading ⊢
  split
  · next hif =>
    rw [if_pos hif, hif] at hloading
    cases hloading
  · rfl

theorem saveNotifications_eq :
    s.saveNotifications = { s with stored := s.saveNotifications.stored } := by
  rw [State.saveNotifications]
  split <;> rfl

variable {s}

theorem Core.setStored (h : Core s w) (stored : List (String × List (String × Serialized))) :
    Core { s with stored := stored } w :=
  ⟨h.registered, h.byId, h.own, h.taken, h.room, h.kept⟩

theorem Core.saveNotifications (h : Core s w) : Core s.saveNotifications w := by
  rw [saveNotifications_eq]
  exact h.setStored _

theorem Touches.saveNotifications (h : Touches s t src) : Touches s t.saveNotifications src := by
  rw [saveNotifications_eq]
  exact ⟨h.sources, h.createdSources, h.notification, h.created, h.accepts, h.isLoading, h.last,
    h.other, h.appId, h.inDestruction⟩

theorem Becomes.saveNotifications (h : Becomes s t src l) : Becomes s t.saveNotifications src l := by
  have htouches := h.toTouches.saveNotifications
  rw [saveNotifications_eq] at htouches ⊢
  exact ⟨htouches, h.notificationPending, h.had, h.notifications⟩

end Save

/-! ## The end of a notification -/

section Release

theorem Core.nodup_ids (h : Core s w) (src : ℕ) :
    (((s.source src).notifications ++ w.filter fun n => (s.notification n).source = src).map
      fun n => (s.notification n).id).Nodup := by
  have hnodup := (s.source src).byId.nodup
  rw [h.byId, List.map_map] at hnodup
  exact hnodup

theorem Core.nodup_id (h : Core s w) (src : ℕ) :
    ((s.source src).notifications.map fun n => (s.notification n).id).Nodup := by
  have hnodup := h.nodup_ids src
  rw [List.map_append] at hnodup
  exact (List.nodup_append.mp hnodup).1

theorem filter_ne_eq_erase {f : ℕ → String} (hl : (l.map f).Nodup) (hn : n ∈ l) :
    l.filter (fun m => f m ≠ f n) = l.erase n := by
  rw [(List.Nodup.of_map _ hl).erase_eq_filter]
  apply List.filter_congr
  intro m hm
  have hiff : f m = f n ↔ m = n :=
    ⟨fun heq => List.inj_on_of_nodup_map hl hm hn heq, fun heq => heq ▸ rfl⟩
  by_cases hmn : m = n <;> simp [hiff, hmn]

theorem Core.release (h : Core s w) (hn : n ∈ (s.source src).notifications) :
    Core (s.release n) w ∧ Becomes s (s.release n) src ((s.source src).notifications.erase n) ∧
      Saved (s.release n) := by
  have hsrc : (s.notification n).source = src := (h.own src n hn).2
  have hlisted : s.Listed n := by
    rw [State.Listed, hsrc]
    exact hn
  rw [State.release, if_pos hlisted]
  dsimp only
  rw [hsrc]
  generalize ht : s.setSource src ((s.source src).without n (s.notification n).id) = t
  have hself : t.source src = (s.source src).without n (s.notification n).id := by
    rw [← ht]
    exact setSource_self ..
  have hbecomes : Becomes s t src ((s.source src).notifications.erase n) := by
    have htouches : Touches s t src := by
      rw [← ht]
      exact touches_setSource rfl rfl
    refine ⟨htouches, ?_, ?_, ?_⟩ <;> rw [hself] <;> rfl
  have hsub : ∀ src', ((t.source src').notifications).Sublist (s.source src').notifications := by
    intro src'
    by_cases hne : src' = src
    · subst hne
      rw [hbecomes.notifications]
      exact List.erase_sublist
    · rw [hbecomes.other src' hne]
  have happId : ∀ src', (t.source src').appId = (s.source src').appId := by
    intro src'
    by_cases hne : src' = src
    · subst hne
      exact hbecomes.appId
    · rw [hbecomes.other src' hne]
  refine ⟨Core.saveNotifications ?_, hbecomes.saveNotifications, saved_saveNotifications t⟩
  refine
    { registered := fun appId src' hget => ?_
      byId := fun src' => ?_
      own := fun src' m hm => ?_
      taken := fun src' m hm => ?_
      room := fun src' => Nat.le_trans (hsub src').length_le (h.room src')
      kept := fun src' hne => ?_ }
  · rw [hbecomes.sources] at hget
    rw [hbecomes.createdSources, happId]
    exact h.registered appId src' hget
  · rw [hbecomes.notification]
    by_cases hne : src' = src
    · subst hne
      -- the map loses the id, the list the notification
      have hmem : n ∈ (s.source src').notifications ++
          w.filter fun n => (s.notification n).source = src' := List.mem_append_left _ hn
      rw [hself]
      show (s.source src').byId.entries.filter _ = _
      rw [h.byId, List.filter_map]
      show (List.filter (fun m => decide ((s.notification m).id ≠ (s.notification n).id)) _).map _ = _
      rw [filter_ne_eq_erase (h.nodup_ids src') hmem, List.erase_append_left _ hn]
      rfl
    · rw [hbecomes.other src' hne]
      exact h.byId src'
  · rw [hbecomes.created, hbecomes.notification]
    exact h.own src' m ((hsub src').subset hm)
  · rw [hbecomes.accepts, hbecomes.notification]
    exact h.taken src' m ((hsub src').subset hm)
  · rw [hbecomes.sources, happId]
    refine h.kept src' fun hnil => hne ?_
    exact List.eq_nil_of_subset_nil (hnil ▸ (hsub src').subset)

theorem destroyNotification_eq_release (hsrc : (s.notification n).source = src)
    (hpending : (s.release n |>.source src).notificationPending = true ∨
      ((s.release n).source src).notifications ≠ []) :
    s.destroyNotification n = s.release n := by
  rw [State.destroyNotification, hsrc]
  split
  · next hempty =>
    rw [State.destroySource, if_pos (hpending.resolve_right fun hne => hne hempty.2.2)]
  · rfl

section

variable (h : Core s w)
include h

theorem Core.destroyNotification (hn : n ∈ (s.source src).notifications)
    (hkeeps : (s.source src).notificationPending = true ∨ (s.source src).notifications ≠ [n]) :
    s.destroyNotification n = s.release n := by
  obtain ⟨-, hbecomes, -⟩ := h.release hn
  apply destroyNotification_eq_release (h.own src n hn).2
  rw [hbecomes.notificationPending, hbecomes.notifications]
  refine hkeeps.imp_right fun hne hnil => hne ?_
  have hlength := List.length_erase_of_mem hn
  rw [hnil, List.length_nil] at hlength
  have hpos := List.length_pos_of_mem hn
  obtain ⟨m, hm⟩ := List.length_eq_one_iff.mp (show (s.source src).notifications.length = 1 by omega)
  rw [hm] at hn ⊢
  rw [List.mem_singleton.mp hn]

/-- All notifications of a source end, the oldest first. Induction on the list. -/
theorem Core.foldl_release (hl : (s.source src).notifications = l) :
    Core (l.foldl State.release s) w ∧ Becomes s (l.foldl State.release s) src [] := by
  induction l generalizing s with
  | nil =>
    have hrefl := Becomes.refl s src
    rw [hl] at hrefl
    exact ⟨h, hrefl⟩
  | cons n l ih =>
    have hn : n ∈ (s.source src).notifications := by
      rw [hl]
      exact List.mem_cons_self
    obtain ⟨hcore, hbecomes, -⟩ := h.release hn
    have hrest : ((s.release n).source src).notifications = l := by
      rw [hbecomes.notifications, hl, List.erase_cons_head]
    obtain ⟨hcore', hbecomes'⟩ := ih hcore hrest
    exact ⟨hcore', hbecomes.trans hbecomes'⟩

theorem Core.evict (src : ℕ) (hpending : (s.source src).notificationPending = true) :
    let k := (s.source src).notifications.length + 1 - maxNotificationsPerSource
    let t := ((s.source src).notifications.take k).foldl State.destroyNotification s
    Core t w ∧ Becomes s t src ((s.source src).notifications.drop k) := by
  intro k t
  have hroom := h.room src
  have hrefl := Becomes.refl s src
  cases hl : (s.source src).notifications with
  | nil =>
    rw [hl] at hrefl
    have ht : t = s := by simp only [t, hl, List.take_nil, List.foldl_nil]
    rw [ht, List.drop_nil]
    exact ⟨h, hrefl⟩
  | cons n l =>
    rw [hl] at hrefl hroom
    rw [List.length_cons] at hroom
    have hk : k = 0 ∨ k = 1 := by
      simp only [k, hl, List.length_cons]
      omega
    have hn : n ∈ (s.source src).notifications := by
      rw [hl]
      exact List.mem_cons_self
    obtain hk | hk := hk
    · have ht : t = s := by simp only [t, hk, List.take_zero, List.foldl_nil]
      rw [ht, hk]
      exact ⟨h, hrefl⟩
    · have ht : t = s.release n := by
        simp only [t, hk, hl, List.take_succ_cons, List.take_zero, List.foldl_cons, List.foldl_nil]
        exact h.destroyNotification hn (Or.inl hpending)
      obtain ⟨hcore, hbecomes, -⟩ := h.release hn
      rw [ht, hk]
      rw [hl, List.erase_cons_head] at hbecomes
      exact ⟨hcore, hbecomes⟩

theorem Core.setFlags (source : Source) (happId : source.appId = (s.source src).appId)
    (hbyId : source.byId = (s.source src).byId)
    (hnotifications : source.notifications = (s.source src).notifications) :
    Core (s.setSource src source) w := by
  have hcases : ∀ src', (s.setSource src source).source src' = s.source src' ∨
      src' = src ∧ (s.setSource src source).source src' = source := by
    intro src'
    by_cases hne : src' = src
    · subst hne
      exact Or.inr ⟨rfl, setSource_self ..⟩
    · exact Or.inl (setSource_other _ _ hne)
  have hfields : ∀ src', ((s.setSource src source).source src').appId = (s.source src').appId ∧
      ((s.setSource src source).source src').byId = (s.source src').byId ∧
      ((s.setSource src source).source src').notifications = (s.source src').notifications := by
    intro src'
    obtain hsame | ⟨rfl, hself⟩ := hcases src'
    · rw [hsame]
      exact ⟨rfl, rfl, rfl⟩
    · rw [hself]
      exact ⟨happId, hbyId, hnotifications⟩
  refine
    { registered := fun appId src' hget => ?_
      byId := fun src' => ?_
      own := fun src' => ?_
      taken := fun src' => ?_
      room := fun src' => ?_
      kept := fun src' => ?_ } <;> obtain ⟨h1, h2, h3⟩ := hfields src'
  · rw [h1]
    exact h.registered appId src' hget
  · rw [h2, h3]
    exact h.byId src'
  · rw [h3]
    exact h.own src'
  · rw [h3]
    exact h.taken src'
  · rw [h3]
    exact h.room src'
  · rw [h1, h3]
    exact h.kept src'

theorem Core.eraseSource {appId : String} (hget : s.sources.get? appId = some src)
    (hnil : (s.source src).notifications = []) :
    Core { s with sources := s.sources.erase appId } w where
  __ := h
  registered appId' src' hget' := by
    refine h.registered appId' src' ?_
    dsimp only at hget'
    rw [Dict.get?_erase] at hget'
    exact (Option.ite_none_left_eq_some.mp hget').2
  kept src' hne := by
    have hkept := h.kept src' hne
    have happ : (s.source src').appId ≠ appId := by
      intro heq
      rw [heq, hget] at hkept
      exact hne (Option.some.inj hkept ▸ hnil)
    show (s.sources.erase appId).get? (s.source src').appId = some src'
    rw [Dict.get?_erase_of_ne _ happ]
    exact hkept

end

theorem Core.destroySource (h : Core s []) {appId : String} (hget : s.sources.get? appId = some src)
    (hpending : (s.source src).notificationPending = false) :
    Core (s.destroySource src) [] ∧ Saved (s.destroySource src) ∧
      (s.destroySource src).sources = s.sources.erase appId ∧
      (∀ src', src' ≠ src → (s.destroySource src).source src' = s.source src') ∧
      (s.destroySource src).notification = s.notification ∧
      (s.destroySource src).isLoading = s.isLoading ∧
      (s.destroySource src).accepts = s.accepts ∧ (s.destroySource src).last = s.last := by
  have hnot : ¬ (s.source src).notificationPending = true := by
    rw [hpending]
    exact Bool.false_ne_true
  rw [State.destroySource, if_neg hnot]
  dsimp only
  generalize hs' : s.setSource src { s.source src with inDestruction := true } = s'
  have hself : s'.source src = { s.source src with inDestruction := true } := by
    rw [← hs']
    exact setSource_self ..
  have hflag : Core s' [] := by
    rw [← hs']
    exact h.setFlags _ rfl rfl rfl
  obtain ⟨hcore, hbecomes⟩ := hflag.foldl_release (Eq.refl (s'.source src).notifications)
  generalize (s'.source src).notifications.foldl State.release s' = t at hcore hbecomes ⊢
  have happId : (t.source src).appId = appId := by
    rw [hbecomes.appId, hself]
    exact (h.registered appId src hget).2
  have hsources : t.sources = s.sources := hbecomes.sources.trans (by rw [← hs']; rfl)
  rw [happId]
  have herased := hcore.eraseSource (hsources ▸ hget) hbecomes.notifications
  refine ⟨herased.saveNotifications, saved_saveNotifications _, ?_, fun src' hne => ?_, ?_, ?_, ?_, ?_⟩
  all_goals rw [saveNotifications_eq]; dsimp only
  · rw [hsources]
  · rw [hbecomes.other src' hne, ← hs']
    exact setSource_other _ _ hne
  · rw [hbecomes.notification, ← hs']
    rfl
  · rw [hbecomes.isLoading, ← hs']
    rfl
  · rw [hbecomes.accepts, ← hs']
    rfl
  · rw [hbecomes.last, ← hs']
    rfl

end Release

/-! ## A new notification -/

section Add

/-- The list of a source when `id` is added: the old one is gone, and the oldest make room. -/
def roomFor (s : State) (src : ℕ) (id : String) : List ℕ :=
  let l := (s.source src).notifications.filter fun n => (s.notification n).id ≠ id
  l.drop (l.length + 1 - maxNotificationsPerSource)

structure Unlisted (s : State) (src n : ℕ) : Prop where
  created : n < s.created
  source : (s.notification n).source = src
  unlisted : ∀ src', n ∉ (s.source src').notifications
  accepted : s.accepts (s.notification n).serialized = true
  id : (s.notification n).id ∉ inherited

theorem Core.replace (h : Core s []) (id : String)
    (hpending : (s.source src).notificationPending = true) :
    Core (s.replace src id) [] ∧ Becomes s (s.replace src id) src
      ((s.source src).notifications.filter fun n => (s.notification n).id ≠ id) := by
  have hentries := h.byId src
  rw [List.filter_nil, List.append_nil] at hentries
  rw [State.replace]
  cases hget : (s.source src).byId.get? id with
  | none =>
    -- no notification has the id
    have hall : ∀ n ∈ (s.source src).notifications, (s.notification n).id ≠ id := by
      rintro n hn rfl
      apply Dict.get?_eq_none.mp hget
      rw [Dict.keys, hentries, List.map_map]
      exact List.mem_map_of_mem hn
    rw [List.filter_eq_self.mpr fun n hn => decide_eq_true (hall n hn)]
    exact ⟨h, Becomes.refl s src⟩
  | some old =>
    have hmem := Dict.get?_eq_some.mp hget
    rw [hentries] at hmem
    obtain ⟨n, hn, heq⟩ := List.mem_map.mp hmem
    obtain ⟨rfl, rfl⟩ := Prod.mk.inj heq
    dsimp only
    obtain ⟨hcore, hbecomes, -⟩ := h.release hn
    rw [filter_ne_eq_erase (h.nodup_id src) hn, h.destroyNotification hn (Or.inl hpending)]
    exact ⟨hcore, hbecomes⟩

theorem filter_own {s : State} {n src : ℕ} (h : (s.notification n).source = src) :
    [n].filter (fun m => (s.notification m).source = src) = [n] := by
  rw [List.filter_eq_self]
  intro m hm
  rw [List.mem_singleton.mp hm]
  exact decide_eq_true h

theorem filter_other {s : State} {n src src' : ℕ} (h : (s.notification n).source = src) (hne : src' ≠ src) :
    [n].filter (fun m => (s.notification m).source = src') = [] := by
  rw [List.filter_eq_nil_iff]
  intro m hm hsrc
  rw [List.mem_singleton.mp hm] at hsrc
  exact hne ((of_decide_eq_true hsrc).symm.trans h)

theorem Core.announce (h : Core s []) {source : Source} (hsource : (s.notification n).source = src)
    (hid : ∀ m ∈ (s.source src).notifications, (s.notification m).id ≠ (s.notification n).id)
    (hbyId : source.byId = (s.source src).byId.set (s.notification n).id n)
    (happId : source.appId = (s.source src).appId)
    (hnotifications : source.notifications = (s.source src).notifications) :
    Core (s.setSource src source) [n] := by
  have hself : (s.setSource src source).source src = source := setSource_self ..
  have hother : ∀ src', src' ≠ src → (s.setSource src source).source src' = s.source src' :=
    fun src' hne => setSource_other _ _ hne
  have hentries := h.byId
  simp only [List.filter_nil, List.append_nil] at hentries
  have hfields : ∀ src', ((s.setSource src source).source src').appId = (s.source src').appId ∧
      ((s.setSource src source).source src').notifications = (s.source src').notifications := by
    intro src'
    by_cases hne : src' = src
    · subst hne
      rw [hself]
      exact ⟨happId, hnotifications⟩
    · rw [hother src' hne]
      exact ⟨rfl, rfl⟩
  refine
    { registered := fun appId src' hget => ?_
      byId := fun src' => ?_
      own := fun src' => ?_
      taken := fun src' => ?_
      room := fun src' => ?_
      kept := fun src' => ?_ } <;> obtain ⟨h1, h2⟩ := hfields src'
  · rw [h1]
    exact h.registered appId src' hget
  · rw [h2]
    by_cases hne : src' = src
    · subst hne
      have hnew : (s.notification n).id ∉ (s.source src').byId.entries.map Prod.fst := by
        rw [hentries, List.map_map]
        intro hmem
        obtain ⟨m, hm, heq⟩ := List.mem_map.mp hmem
        exact hid m hm heq
      rw [filter_own (s := s.setSource src' source) hsource, hself, hbyId]
      show Dict.setEntries _ _ _ = _
      rw [Dict.setEntries, if_neg hnew, hentries, List.map_append]
      rfl
    · rw [filter_other (s := s.setSource src source) hsource hne, hother src' hne, List.append_nil]
      exact hentries src'
  · rw [h2]
    exact h.own src'
  · rw [h2]
    exact h.taken src'
  · rw [h2]
    exact h.room src'
  · rw [h1, h2]
    exact h.kept src'

theorem Core.append (h : Core s [n]) (hn : Unlisted s src n) {source : Source}
    (hget : s.sources.get? (s.source src).appId = some src)
    (hroom : (s.source src).notifications.length < maxNotificationsPerSource)
    (hbyId : source.byId = (s.source src).byId) (happId : source.appId = (s.source src).appId)
    (hnotifications : source.notifications = (s.source src).notifications ++ [n]) :
    Core (s.setSource src source) [] := by
  have hself : (s.setSource src source).source src = source := setSource_self ..
  have hother : ∀ src', src' ≠ src → (s.setSource src source).source src' = s.source src' :=
    fun src' hne => setSource_other _ _ hne
  have hmem : ∀ src', ∀ m ∈ ((s.setSource src source).source src').notifications,
      m ∈ (s.source src').notifications ∨ src' = src ∧ m = n := by
    intro src' m hm
    by_cases hne : src' = src
    · subst hne
      rw [hself, hnotifications] at hm
      exact (List.mem_append.mp hm).imp_right fun hm => ⟨rfl, List.mem_singleton.mp hm⟩
    · rw [hother src' hne] at hm
      exact Or.inl hm
  refine
    { registered := fun appId src' hget' => ?_
      byId := fun src' => ?_
      own := fun src' m hm => ?_
      taken := fun src' m hm => ?_
      room := fun src' => ?_
      kept := fun src' hne' => ?_ }
  · by_cases hne : src' = src
    · subst hne
      rw [hself, happId]
      exact h.registered appId src' hget'
    · rw [hother src' hne]
      exact h.registered appId src' hget'
  · rw [List.filter_nil, List.append_nil]
    have hentries := h.byId src'
    by_cases hne : src' = src
    · subst hne
      rw [hself, hbyId, hnotifications, hentries]
      rw [filter_own hn.source]
      rfl
    · rw [hother src' hne, hentries, filter_other hn.source hne, List.append_nil]
      rfl
  · obtain hm | ⟨rfl, rfl⟩ := hmem src' m hm
    · exact h.own src' m hm
    · exact ⟨hn.created, hn.source⟩
  · obtain hm | ⟨rfl, rfl⟩ := hmem src' m hm
    · exact h.taken src' m hm
    · exact ⟨hn.accepted, hn.id⟩
  · by_cases hne : src' = src
    · subst hne
      rw [hself, hnotifications, List.length_append, List.length_singleton]
      exact hroom
    · rw [hother src' hne]
      exact h.room src'
  · by_cases hne : src' = src
    · subst hne
      rw [hself, happId]
      exact hget
    · rw [hother src' hne] at hne' ⊢
      exact h.kept src' hne'

theorem Saved.setPending (h : Saved s) (src : ℕ) (notificationPending : Bool) :
    Saved (s.setPending src notificationPending) := by
  intro hloading
  have hsource : ∀ src', ((s.setPending src notificationPending).source src').appId =
      (s.source src').appId ∧
      ((s.setPending src notificationPending).source src').byId = (s.source src').byId := by
    intro src'
    by_cases hne : src' = src
    · subst hne
      rw [State.setPending, setSource_self]
      exact ⟨rfl, rfl⟩
    · rw [State.setPending, setSource_other _ _ hne]
      exact ⟨rfl, rfl⟩
  refine (h hloading).trans ?_
  apply List.map_congr_left
  intro e _
  rw [State.serialize, State.serialize, (hsource e.2).1, (hsource e.2).2]
  rfl

theorem Core.push (h : Core s [n]) (hn : Unlisted s src n)
    (hget : s.sources.get? (s.source src).appId = some src)
    (hpending : (s.source src).notificationPending = true) :
    let k := (s.source src).notifications.length + 1 - maxNotificationsPerSource
    Core (s.push src n) [] ∧ Touches s (s.push src n) src ∧
      ((s.push src n).source src).notifications = (s.source src).notifications.drop k ++ [n] ∧
      ((s.push src n).source src).had = true ∧ Saved (s.push src n) := by
  intro k
  obtain ⟨hcore, hbecomes⟩ := h.evict src hpending
  have hroom := h.room src
  rw [State.push, if_neg (hn.unlisted src)]
  dsimp only
  generalize ((s.source src).notifications.take _).foldl State.destroyNotification s = t at *
  have hn' : Unlisted t src n := by
    refine ⟨?_, ?_, fun src' hmem => ?_, ?_, ?_⟩
    · rw [hbecomes.created]
      exact hn.created
    · rw [hbecomes.notification]
      exact hn.source
    · by_cases hne : src' = src
      · subst hne
        rw [hbecomes.notifications] at hmem
        exact hn.unlisted src' (List.mem_of_mem_drop hmem)
      · rw [hbecomes.other src' hne] at hmem
        exact hn.unlisted src' hmem
    · rw [hbecomes.accepts, hbecomes.notification]
      exact hn.accepted
    · rw [hbecomes.notification]
      exact hn.id
  have hlength : (t.source src).notifications.length < maxNotificationsPerSource := by
    rw [hbecomes.notifications, List.length_drop]
    simp only [maxNotificationsPerSource] at hroom ⊢
    omega
  have hget' : t.sources.get? (t.source src).appId = some src := by
    rw [hbecomes.sources, hbecomes.appId]
    exact hget
  generalize ht : t.setSource src _ = u
  have hself : u.source src =
      { t.source src with
        notifications := (t.source src).notifications ++ [n]
        had := true } := by
    rw [← ht]
    exact setSource_self ..
  have hcore' : Core u [] := by
    rw [← ht]
    exact hcore.append hn' hget' hlength rfl rfl rfl
  have htouches : Touches t u src := by
    rw [← ht]
    exact touches_setSource rfl rfl
  refine ⟨hcore'.saveNotifications, (hbecomes.toTouches.trans htouches).saveNotifications, ?_, ?_,
    saved_saveNotifications u⟩
  · rw [saveNotifications_eq]
    dsimp only
    rw [hself, hbecomes.notifications]
  · rw [saveNotifications_eq]
    dsimp only
    rw [hself]

theorem Core.addNotification (h : Core s []) (hn : Unlisted s src n)
    (hget : s.sources.get? (s.source src).appId = some src) :
    ∃ t, s.addNotification src n = .ok t ∧ Core t [] ∧ Touches s t src ∧
      (t.source src).notifications = roomFor s src (s.notification n).id ++ [n] ∧
      (t.source src).had = true ∧ (t.source src).notificationPending = false ∧ Saved t := by
  rw [State.addNotification]
  dsimp only
  rw [if_neg (show (s.notification n).id ∉ inherited from hn.id)]
  generalize hs1 : s.setPending src true = s1
  have hself1 : s1.source src = { s.source src with notificationPending := true } := by
    rw [← hs1]
    exact setSource_self ..
  have hcore1 : Core s1 [] := by
    rw [← hs1]
    exact h.setFlags _ rfl rfl rfl
  have htouches1 : Touches s s1 src := by
    rw [← hs1]
    exact touches_setSource rfl rfl
  -- the notification that has the id goes
  obtain ⟨hcore2, hbecomes2⟩ := hcore1.replace (s.notification n).id (by rw [hself1])
  generalize s1.replace src (s.notification n).id = s2 at *
  have htouches2 := htouches1.trans hbecomes2.toTouches
  have hlist2 : (s2.source src).notifications =
      (s.source src).notifications.filter fun m => (s.notification m).id ≠ (s.notification n).id := by
    rw [hbecomes2.notifications, htouches1.notification, hself1]
  have hpending2 : (s2.source src).notificationPending = true := by
    rw [hbecomes2.notificationPending, hself1]
  generalize hs3 : s2.setSource src _ = s3
  have hself3 : s3.source src =
      { s2.source src with byId := (s2.source src).byId.set (s.notification n).id n } := by
    rw [← hs3]
    exact setSource_self ..
  have htouches3 : Touches s s3 src := by
    rw [← hs3]
    exact htouches2.trans (touches_setSource rfl rfl)
  have hcore3 : Core s3 [n] := by
    rw [← hs3]
    refine hcore2.announce ?_ (fun m hm => ?_) ?_ rfl rfl
    · rw [htouches2.notification]
      exact hn.source
    · rw [hlist2] at hm
      rw [htouches2.notification]
      exact of_decide_eq_true (List.mem_filter.mp hm).2
    · rw [htouches2.notification]
  have hn3 : Unlisted s3 src n := by
    refine ⟨?_, ?_, fun src' hmem => ?_, ?_, ?_⟩
    · rw [htouches3.created]
      exact hn.created
    · rw [htouches3.notification]
      exact hn.source
    · by_cases hne : src' = src
      · subst hne
        rw [hself3] at hmem
        dsimp only at hmem
        rw [hlist2] at hmem
        exact hn.unlisted src' (List.mem_of_mem_filter hmem)
      · rw [htouches3.other src' hne] at hmem
        exact hn.unlisted src' hmem
    · rw [htouches3.accepts, htouches3.notification]
      exact hn.accepted
    · rw [htouches3.notification]
      exact hn.id
  have hget3 : s3.sources.get? (s3.source src).appId = some src := by
    rw [htouches3.sources, htouches3.appId]
    exact hget
  obtain ⟨hcore4, htouches4, hlist4, hhad4, hsaved4⟩ := hcore3.push hn3 hget3 (by rw [hself3, ← hpending2])
  have hself5 : ((s3.push src n).setPending src false).source src =
      { (s3.push src n).source src with notificationPending := false } := setSource_self ..
  refine ⟨_, rfl, hcore4.setFlags _ rfl rfl rfl,
    (htouches3.trans htouches4).trans (touches_setSource rfl rfl), ?_, ?_, ?_,
    hsaved4.setPending src false⟩
  · rw [hself5]
    dsimp only
    rw [hlist4, hself3]
    dsimp only
    rw [hlist2]
    rfl
  · rw [hself5]
    exact hhad4
  · rw [hself5]

end Add

end NotificationDaemon.Gtk
