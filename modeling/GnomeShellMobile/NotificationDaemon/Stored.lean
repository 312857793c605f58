import GnomeShellMobile.NotificationDaemon.Recreated

/-!
# NotificationDaemon — the stored notifications are the live ones

* `Inv`: what holds in every state; it leaves open whether a source is stuck in an addition.
* `Careful`: what an event has to meet.
* `run_stored_iff`: what was written last is right all along a run exactly when each event is careful.
-/

namespace NotificationDaemon.Gtk

variable {s t : State} {src n : ℕ} {appId id : String} {c : Serialized}

structure Inv (s : State) : Prop where
  core : Core s []
  isLoading : s.isLoading = false
  alive : ∀ appId src, s.sources.get? appId = some src →
    (s.source src).inDestruction = false ∧
      ((s.source src).had = true ↔ (s.source src).notifications ≠ [])
  written : ∀ appId, s.storedFor appId = Dict.enumerate arrayIndex (s.live appId)
  apps : (s.stored.map Prod.fst).Nodup
  gone : ∀ appId, (appId, []) ∈ s.stored →
    ∃ src, s.sources.get? appId = some src ∧ (s.source src).had = false
  ordered : ∀ appId, ((s.live appId).map Prod.fst).Pairwise (Dict.Before arrayIndex)
  last : ∀ appId id c, (id, c) ∈ s.live appId → s.last appId id = some c
  recreated : ∀ validApp : String → Bool, (∀ appId ∈ s.sources.keys, validApp appId = true) →
    ∀ appId, (State.load validApp s.accepts s.stored).live appId = s.storedFor appId

theorem Inv.of_saved (hcore : Core s []) (hloading : s.isLoading = false) (hsaved : Saved s)
    (halive : ∀ appId src, s.sources.get? appId = some src →
      (s.source src).inDestruction = false ∧
        ((s.source src).had = true ↔ (s.source src).notifications ≠ []))
    (hordered : ∀ appId, ((s.live appId).map Prod.fst).Pairwise (Dict.Before arrayIndex))
    (hlast : ∀ appId id c, (id, c) ∈ s.live appId → s.last appId id = some c) : Inv s where
  core := hcore
  isLoading := hloading
  alive := halive
  written := hcore.storedFor (hsaved hloading)
  apps := by
    rw [hsaved hloading, hcore.serialization, List.map_map]
    exact s.sources.nodup
  gone appId hmem := by
    rw [hsaved hloading, hcore.serialization] at hmem
    obtain ⟨⟨appId', src⟩, hentry, heq⟩ := List.mem_map.mp hmem
    obtain ⟨rfl, hnil⟩ := Prod.mk.inj heq
    have hget := Dict.get?_eq_some.mpr hentry
    refine ⟨src, hget, ?_⟩
    -- what is enumerated as nothing is nothing
    have hentries : s.entries src = [] :=
      List.Perm.eq_nil ((Dict.enumerate_perm arrayIndex _).symm.trans (hnil ▸ List.Perm.refl _))
    have hnotifications : (s.source src).notifications = [] := List.map_eq_nil_iff.mp hentries
    apply Bool.eq_false_iff.mpr
    exact fun hhad => (halive appId' src hget).2.mp hhad hnotifications
  ordered := hordered
  last := hlast
  recreated validApp hvalid := hcore.live_load (hsaved hloading) hvalid

theorem Inv.consistent (h : Inv s) : Consistent s where
  __ := h
  stored appId := by
    rw [h.written]
    exact Dict.enumerate_perm _ _
  once appId := (h.core.loadable_live appId).ids
  recreated validApp hvalid appId := by
    rw [h.recreated validApp hvalid, h.written]
    exact Dict.enumerate_eq_self_iff.mpr (h.ordered appId)
  replaces := by
    intro appId id c now valid src hget hid haccepts
    obtain ⟨e, he, rfl⟩ := List.mem_map.mp hid
    have hfree := ((h.core.loadable_live appId).taken e he).2
    obtain ⟨t, hadd, hadded⟩ := h.core.addNew hget haccepts hfree
    rw [State.addNotificationAsync, ensureAppSource_of_get valid hget]
    dsimp only
    rw [hadd]
    refine ⟨hadded.sources ▸ hget, ?_⟩
    show t.live appId = _
    rw [hadded.live, if_pos rfl]
    exact added_of_mem hid (h.core.loadable_live appId).room

theorem Inv.empty (accepts : Serialized → Bool) : Inv (State.empty accepts false []) where
  core := Core.empty accepts false []
  isLoading := rfl
  alive appId src hget := by cases hget
  written _ := rfl
  apps := List.nodup_nil
  gone appId hmem := by cases hmem
  ordered _ := List.Pairwise.nil
  last appId id c hmem := by cases hmem
  recreated _ _ _ := rfl

/-! ## An addition -/

section Add

def Placed (s : State) (appId id : String) : Prop :=
  ∀ key ∈ (others (s.live appId) id).map Prod.fst, Dict.Before arrayIndex key id
deriving Decidable

theorem others_sublist (l : List (String × Serialized)) (id : String) : (others l id).Sublist l :=
  (List.drop_sublist _ _).trans List.filter_sublist

theorem map_fst_added (l : List (String × Serialized)) (id : String) (c : Serialized) :
    (added l id c).map Prod.fst = (others l id).map Prod.fst ++ [id] := by
  rw [added, List.map_append]
  rfl

theorem Inv.setPending (h : Inv s) (src : ℕ) (notificationPending : Bool) :
    Inv (s.setPending src notificationPending) := by
  have hcore : Core (s.setPending src notificationPending) [] := h.core.setFlags _ rfl rfl rfl
  have hsource : ∀ src', ((s.setPending src notificationPending).source src').inDestruction =
        (s.source src').inDestruction ∧
      ((s.setPending src notificationPending).source src').had = (s.source src').had ∧
      ((s.setPending src notificationPending).source src').notifications =
        (s.source src').notifications := by
    intro src'
    by_cases hne : src' = src
    · subst hne
      rw [State.setPending, setSource_self]
      exact ⟨rfl, rfl, rfl⟩
    · rw [State.setPending, setSource_other _ _ hne]
      exact ⟨rfl, rfl, rfl⟩
  have hlive : ∀ appId, (s.setPending src notificationPending).live appId = s.live appId := by
    intro appId
    cases hget : s.sources.get? appId with
    | none => rw [live_of_none hget, live_of_none (s := s.setPending src notificationPending) hget]
    | some src' =>
      rw [live_of_get hget, live_of_get (s := s.setPending src notificationPending) hget,
        State.entries, (hsource src').2.2]
      rfl
  refine
    { h with
      core := hcore
      alive := fun appId src' hget => ?_
      written := fun appId => (h.written appId).trans (by rw [hlive])
      gone := fun appId hmem => ?_
      ordered := fun appId => hlive appId ▸ h.ordered appId
      last := fun appId id c hmem => h.last appId id c (hlive appId ▸ hmem) }
  · obtain ⟨h1, h2, h3⟩ := hsource src'
    rw [h1, h2, h3]
    exact h.alive appId src' hget
  · obtain ⟨src', hget, hhad⟩ := h.gone appId hmem
    exact ⟨src', hget, (hsource src').2.1.trans hhad⟩

theorem Inv.makeSource (h : Inv s) (hget : s.sources.get? appId = none) :
    Inv (s.makeSource appId) := by
  have hlive := h.core.live_makeSource hget
  have hold : ∀ appId' src, s.sources.get? appId' = some src →
      (s.makeSource appId).sources.get? appId' = some src ∧
        (s.makeSource appId).source src = s.source src := by
    intro appId' src hget'
    have hne : appId' ≠ appId := by
      rintro rfl
      rw [hget] at hget'
      cases hget'
    constructor
    · show (s.sources.set appId _).get? appId' = some src
      rwa [Dict.get?_set_of_ne _ _ hne]
    · exact makeSource_other s appId (Nat.ne_of_lt (h.core.registered appId' src hget').1)
  refine
    { h with
      core := h.core.makeSource hget
      alive := fun appId' src hget' => ?_
      written := fun appId' => (h.written appId').trans (by rw [hlive])
      gone := fun appId' hmem => ?_
      ordered := fun appId' => hlive appId' ▸ h.ordered appId'
      last := fun appId' id c hmem => h.last appId' id c (hlive appId' ▸ hmem)
      recreated := fun validApp hvalid => h.recreated validApp fun appId' hmem => ?_ }
  · by_cases heq : appId' = appId
    · subst heq
      obtain rfl := Option.some.inj ((get?_makeSource s appId').symm.trans hget')
      rw [makeSource_self]
      exact ⟨rfl, iff_of_false Bool.false_ne_true fun hne => hne rfl⟩
    · have hset : (s.sources.set appId s.createdSources).get? appId' = some src := hget'
      rw [Dict.get?_set_of_ne _ _ heq] at hset
      rw [(hold appId' src hset).2]
      exact h.alive appId' src hset
  · obtain ⟨src, hget', hhad⟩ := h.gone appId' hmem
    obtain ⟨hget'', hsource⟩ := hold appId' src hget'
    exact ⟨src, hget'', hsource ▸ hhad⟩
  · obtain ⟨src, hget'⟩ := Dict.mem_keys_iff.mp hmem
    exact hvalid appId' (Dict.mem_keys_iff.mpr ⟨src, (hold appId' src hget').1⟩)

def State.remember (t : State) (appId id : String) (c : Serialized) : State :=
  { t with last := Function.update t.last appId (Function.update (t.last appId) id (some c)) }

theorem Core.remember (h : Core t []) (appId id : String) (c : Serialized) :
    Core (t.remember appId id c) [] :=
  ⟨h.registered, h.byId, h.own, h.taken, h.room, h.kept⟩

theorem Inv.added (h : Inv s) (hget : s.sources.get? appId = some src) (hadded : Added s t appId src id c)
    (hplaced : Placed s appId id) : Inv (t.remember appId id c) := by
  have hnodup := (h.core.loadable_live appId).ids
  refine Inv.of_saved (hadded.core.remember appId id c) (hadded.isLoading.trans h.isLoading)
    hadded.saved (fun appId' src' hget' => ?_) (fun appId' => ?_) fun appId' id' c' hmem => ?_
  · have hget'' : s.sources.get? appId' = some src' := hadded.sources ▸ hget'
    show (t.source src').inDestruction = false ∧
      ((t.source src').had = true ↔ (t.source src').notifications ≠ [])
    by_cases hne : src' = src
    · subst hne
      rw [hadded.inDestruction]
      exact ⟨(h.alive appId' src' hget'').1, iff_of_true hadded.had hadded.notifications⟩
    · rw [hadded.other src' hne]
      exact h.alive appId' src' hget''
  · show ((t.live appId').map Prod.fst).Pairwise _
    rw [hadded.live]
    split
    · rw [map_fst_added, Dict.pairwise_append_singleton]
      exact ⟨(h.ordered appId).sublist ((others_sublist _ id).map Prod.fst), hplaced⟩
    · exact h.ordered appId'
  · have hmem' : (id', c') ∈ t.live appId' := hmem
    rw [hadded.live] at hmem'
    show Function.update t.last appId _ appId' id' = some c'
    rw [hadded.last]
    split at hmem'
    · next heq =>
      subst heq
      rw [Function.update_self]
      obtain hmem' | hmem' := List.mem_append.mp hmem'
      · -- what stays has another id
        have hne : id' ≠ id := by
          have hfilter := (List.drop_sublist _ _).subset hmem'
          exact of_decide_eq_true (List.mem_filter.mp hfilter).2
        rw [Function.update_of_ne hne]
        exact h.last appId' id' c' ((others_sublist _ id).subset hmem')
      · obtain ⟨rfl, rfl⟩ := Prod.mk.inj (List.mem_singleton.mp hmem')
        rw [Function.update_self]
    · next hne =>
      rw [Function.update_of_ne hne]
      exact h.last appId' id' c' hmem'

theorem addNotification_of_inherited (h : (s.notification n).id ∈ inherited) :
    s.addNotification src n = .error (s.setPending src true) := by
  rw [State.addNotification]
  exact if_pos h

theorem addNew_error (hthrows : s.accepts c = false ∨ id ∈ inherited) :
    s.addNew src id c = .error s ∨
      s.addNew src id c = .error ((s.make src id c).setPending src true) := by
  by_cases haccepts : s.accepts c = true
  · right
    have hid := hthrows.resolve_left (by rw [haccepts]; exact Bool.noConfusion)
    rw [State.addNew, if_pos haccepts]
    apply addNotification_of_inherited (s := s.make src id c)
    rw [make_notification_self]
    exact hid
  · left
    rw [State.addNew, if_neg haccepts]

theorem Inv.make (h : Inv s) (src : ℕ) (id : String) (c : Serialized) : Inv (s.make src id c) := by
  have hlive : ∀ appId, (s.make src id c).live appId = s.live appId := by
    intro appId
    cases hget : s.sources.get? appId with
    | none => rw [live_of_none hget, live_of_none (s := s.make src id c) hget]
    | some src' =>
      rw [live_of_get hget, live_of_get (s := s.make src id c) hget]
      exact h.core.live_make src id c src'
  exact
    { h with
      core := h.core.make src id c
      written := fun appId => (h.written appId).trans (by rw [hlive])
      ordered := fun appId => hlive appId ▸ h.ordered appId
      last := fun appId id c hmem => h.last appId id c (hlive appId ▸ hmem) }

theorem Inv.ensureAppSource (h : Inv s) {valid : Bool}
    (hensure : s.ensureAppSource appId valid = some (t, src)) :
    Inv t ∧ t.sources.get? appId = some src ∧ t.live appId = s.live appId ∧
      t.accepts = s.accepts := by
  cases hget : s.sources.get? appId with
  | some src' =>
    rw [ensureAppSource_of_get valid hget] at hensure
    obtain ⟨rfl, rfl⟩ := Prod.mk.inj (Option.some.inj hensure)
    exact ⟨h, hget, rfl, rfl⟩
  | none =>
    cases valid with
    | false =>
      rw [ensureAppSource_of_invalid hget] at hensure
      cases hensure
    | true =>
      rw [ensureAppSource_of_valid hget] at hensure
      obtain ⟨rfl, rfl⟩ := Prod.mk.inj (Option.some.inj hensure)
      exact ⟨h.makeSource hget, get?_makeSource s appId, h.core.live_makeSource hget appId, rfl⟩

theorem Inv.addNotificationAsync (h : Inv s) (now : ℕ) (valid : Bool)
    (hplaced : s.accepts (stamp c now) = true → id ∉ inherited → Placed s appId id) :
    Inv (s.addNotificationAsync appId id c now valid) := by
  rw [State.addNotificationAsync]
  split
  · exact h
  · next t src hensure =>
    obtain ⟨hinv, hget, hlive, haccepts⟩ := h.ensureAppSource hensure
    by_cases hthrows : t.accepts (stamp c now) = false ∨ id ∈ inherited
    · obtain herror | herror := addNew_error hthrows <;> rw [herror]
      · exact hinv
      · exact (hinv.make _ _ _).setPending _ _
    · push Not at hthrows
      have htaken : t.accepts (stamp c now) = true := by simpa using hthrows.1
      obtain ⟨u, hadd, hadded⟩ := hinv.core.addNew hget htaken hthrows.2
      rw [hadd]
      apply hinv.added hget hadded
      rw [Placed, hlive]
      exact hplaced (haccepts ▸ htaken) hthrows.2

end Add

/-! ## An end -/

section End

theorem Becomes.live_other {l : List ℕ} (hcore : Core s []) (h : Becomes s t src l)
    (hget : s.sources.get? appId = some src) {appId' : String} (hne : appId' ≠ appId) :
    t.live appId' = s.live appId' := by
  cases hget' : s.sources.get? appId' with
  | none => rw [live_of_none hget', live_of_none (h.sources ▸ hget')]
  | some src' =>
    have hsrc : src' ≠ src := by
      rintro rfl
      exact hne ((hcore.registered appId' src' hget').2.symm.trans (hcore.registered appId src' hget).2)
    rw [live_of_get hget', live_of_get (h.sources ▸ hget'), State.entries, State.entries,
      h.other src' hsrc, h.notification]

theorem Becomes.live_self {l : List ℕ} (h : Becomes s t src l)
    (hget : s.sources.get? appId = some src) : t.live appId =
      l.map fun n => ((s.notification n).id, (s.notification n).serialized) := by
  rw [live_of_get (h.sources ▸ hget), State.entries, h.notifications, h.notification]

theorem Inv.of_destroySource (hcore : Core s []) (hloading : s.isLoading = false)
    (hget : s.sources.get? appId = some src) (hpending : (s.source src).notificationPending = false)
    (halive : ∀ appId' src', s.sources.get? appId' = some src' → appId' ≠ appId →
      (s.source src').inDestruction = false ∧
        ((s.source src').had = true ↔ (s.source src').notifications ≠ []))
    (hordered : ∀ appId', appId' ≠ appId →
      ((s.live appId').map Prod.fst).Pairwise (Dict.Before arrayIndex))
    (hlast : ∀ appId', appId' ≠ appId → ∀ id c, (id, c) ∈ s.live appId' →
      s.last appId' id = some c) : Inv (s.destroySource src) := by
  obtain ⟨hcore', hsaved, hsources, hother, hnotification, hloading', -, hlast'⟩ :=
    hcore.destroySource hget hpending
  generalize s.destroySource src = t at *
  have hget' : ∀ appId' src', t.sources.get? appId' = some src' →
      appId' ≠ appId ∧ s.sources.get? appId' = some src' ∧ t.source src' = s.source src' := by
    intro appId' src' hsome
    rw [hsources, Dict.get?_erase] at hsome
    obtain ⟨hne, hsome⟩ := Option.ite_none_left_eq_some.mp hsome
    refine ⟨hne, hsome, hother src' ?_⟩
    rintro rfl
    exact hne ((hcore.registered appId' src' hsome).2.symm.trans (hcore.registered appId src' hget).2)
  have hlive : ∀ appId', t.live appId' = if appId' = appId then [] else s.live appId' := by
    intro appId'
    cases hsome : t.sources.get? appId' with
    | some src' =>
      obtain ⟨hne, hsome', hsource⟩ := hget' appId' src' hsome
      rw [if_neg hne, live_of_get hsome, live_of_get hsome', State.entries, State.entries, hsource,
        hnotification]
    | none =>
      rw [live_of_none hsome]
      split
      · rfl
      · next hne =>
        rw [hsources, Dict.get?_erase_of_ne _ hne] at hsome
        exact (live_of_none hsome).symm
  refine Inv.of_saved hcore' (hloading'.trans hloading) hsaved (fun appId' src' hsome => ?_)
    (fun appId' => ?_) fun appId' id c hmem => ?_
  · obtain ⟨hne, hsome', hsource⟩ := hget' appId' src' hsome
    rw [hsource]
    exact halive appId' src' hsome' hne
  · rw [hlive]
    split
    · exact List.Pairwise.nil
    · next hne => exact hordered appId' hne
  · rw [hlive] at hmem
    rw [hlast']
    split at hmem
    · cases hmem
    · next hne => exact hlast appId' hne id c hmem

section

variable (h : Inv s)
include h

theorem Inv.destroySource (hget : s.sources.get? appId = some src) :
    Inv (s.destroySource src) := by
  cases hpending : (s.source src).notificationPending with
  | true => rwa [State.destroySource, if_pos hpending]
  | false =>
    exact Inv.of_destroySource h.core h.isLoading hget hpending
      (fun appId' src' hget' _ => h.alive appId' src' hget') (fun appId' _ => h.ordered appId')
      fun appId' _ => h.last appId'

theorem Inv.destroyLast (hget : s.sources.get? appId = some src)
    (hl : (s.source src).notifications = [n])
    (hpending : (s.source src).notificationPending = false) : Inv (s.destroyNotification n) := by
  have hn : n ∈ (s.source src).notifications := by
    rw [hl]
    exact List.mem_singleton_self n
  obtain ⟨hcore, hbecomes, -⟩ := h.core.release hn
  have hsrc := (h.core.own src n hn).2
  have hends : s.destroyNotification n = (s.release n).destroySource src := by
    rw [State.destroyNotification, hsrc]
    apply if_pos
    refine ⟨?_, ?_, ?_⟩
    · rw [State.Listed, hsrc]
      exact hn
    · rw [(h.alive appId src hget).1]
      exact Bool.false_ne_true
    · rw [hbecomes.notifications, hl, List.erase_cons_head]
  rw [hends]
  apply Inv.of_destroySource hcore (hbecomes.isLoading.trans h.isLoading) (hbecomes.sources ▸ hget)
    (hbecomes.notificationPending.trans hpending)
  · intro appId' src' hget' hne
    have hget'' : s.sources.get? appId' = some src' := hbecomes.sources ▸ hget'
    have hsrc' : src' ≠ src := by
      rintro rfl
      exact hne ((h.core.registered appId' src' hget'').2.symm.trans
        (h.core.registered appId src' hget).2)
    rw [hbecomes.other src' hsrc']
    exact h.alive appId' src' hget''
  · intro appId' hne
    rw [hbecomes.live_other h.core hget hne]
    exact h.ordered appId'
  · intro appId' hne id c hmem
    rw [hbecomes.live_other h.core hget hne] at hmem
    rw [hbecomes.last]
    exact h.last appId' id c hmem

theorem Inv.release (hget : s.sources.get? appId = some src)
    (hn : n ∈ (s.source src).notifications) (hl : (s.source src).notifications ≠ [n]) :
    Inv (s.release n) := by
  obtain ⟨hcore, hbecomes, hsaved⟩ := h.core.release hn
  have hleft : (s.source src).notifications.erase n ≠ [] := by
    intro hnil
    apply hl
    have hperm := List.perm_cons_erase hn
    rw [hnil] at hperm
    exact List.perm_singleton.mp hperm
  have hsub : ∀ appId', ((s.release n).live appId').Sublist (s.live appId') := by
    intro appId'
    by_cases heq : appId' = appId
    · subst heq
      rw [hbecomes.live_self hget, live_of_get hget, State.entries]
      exact List.erase_sublist.map _
    · rw [hbecomes.live_other h.core hget heq]
  refine Inv.of_saved hcore (hbecomes.isLoading.trans h.isLoading) hsaved
    (fun appId' src' hget' => ?_)
    (fun appId' => (h.ordered appId').sublist ((hsub appId').map Prod.fst)) fun appId' id c hmem => ?_
  · have hget'' : s.sources.get? appId' = some src' := hbecomes.sources ▸ hget'
    by_cases hsrc : src' = src
    · subst hsrc
      obtain ⟨hdestruction, hhad⟩ := h.alive appId' src' hget''
      rw [hbecomes.inDestruction, hbecomes.had, hbecomes.notifications]
      refine ⟨hdestruction, iff_of_true (hhad.mpr ?_) hleft⟩
      exact List.ne_nil_of_mem hn
    · rw [hbecomes.other src' hsrc]
      exact h.alive appId' src' hget''
  · rw [hbecomes.last]
    exact h.last appId' id c ((hsub appId').subset hmem)

theorem Inv.destroyNotification (hn : n ∈ (s.source src).notifications)
    (hcareful : (s.source src).notificationPending = true → (s.source src).notifications ≠ [n]) :
    Inv (s.destroyNotification n) := by
  have hget := h.core.kept src (List.ne_nil_of_mem hn)
  by_cases hl : (s.source src).notifications = [n]
  · apply h.destroyLast hget hl
    apply Bool.eq_false_iff.mpr
    exact fun hpending => hcareful hpending hl
  · rw [h.core.destroyNotification hn (Or.inr hl)]
    exact h.release hget hn hl

theorem Inv.not_gone (hl : (s.source src).notifications = [n])
    (hpending : (s.source src).notificationPending = true) :
    ¬ Consistent (s.destroyNotification n) := by
  have hn : n ∈ (s.source src).notifications := by
    rw [hl]
    exact List.mem_singleton_self n
  have hget := h.core.kept src (List.ne_nil_of_mem hn)
  obtain ⟨hcore, hbecomes, hsaved⟩ := h.core.release hn
  rw [h.core.destroyNotification hn (Or.inl hpending)]
  intro hconsistent
  have hmem : ((s.source src).appId, []) ∈ (s.release n).stored := by
    rw [hsaved (hbecomes.isLoading.trans h.isLoading), hcore.serialization]
    refine List.mem_map.mpr ⟨((s.source src).appId, src), ?_, ?_⟩
    · exact Dict.get?_eq_some.mp (hbecomes.sources ▸ hget)
    · rw [State.entries, hbecomes.notifications, hl, List.erase_cons_head]
      rfl
  obtain ⟨src', hget', hhad⟩ := hconsistent.gone _ hmem
  rw [hbecomes.sources, hget] at hget'
  obtain rfl := Option.some.inj hget'
  rw [hbecomes.had, (h.alive _ src hget).2.mpr (List.ne_nil_of_mem hn)] at hhad
  cases hhad

end

end End

/-! ## Runs -/

section Runs

/-- What the condition asks of an event.

* An id that is an array index is added after lower indices only.
* The last notification of a source does not end while an addition to the source is stuck. -/
def Careful (s : State) : Event → Prop
  | .addNotification appId id c now _ =>
    s.accepts (stamp c now) = true → id ∉ inherited → Placed s appId id
  | .removeNotification appId id =>
    ∀ src ∈ s.sources.get? appId, (s.source src).notificationPending = true →
      (s.live appId).map Prod.fst ≠ [id]
  | .destroyNotification n =>
    (s.source (s.notification n).source).notificationPending = true →
      (s.source (s.notification n).source).notifications ≠ [n]
  | .destroySource _ => True

instance (s : State) (e : Event) : Decidable (Careful s e) := by
  unfold Careful
  split <;> infer_instance

theorem Inv.removeNotificationAsync_eq (h : Inv s) (appId id : String) :
    id ∉ (s.live appId).map Prod.fst ∧ s.removeNotificationAsync appId id = s ∨
      ∃ src n, s.sources.get? appId = some src ∧ n ∈ (s.source src).notifications ∧
        (s.notification n).id = id ∧
        s.removeNotificationAsync appId id = s.destroyNotification n := by
  rw [State.removeNotificationAsync]
  cases hget : s.sources.get? appId with
  | none =>
    rw [live_of_none hget]
    exact Or.inl ⟨List.not_mem_nil, rfl⟩
  | some src =>
    dsimp only
    have hentries := h.core.byId src
    rw [List.filter_nil, List.append_nil] at hentries
    cases hid : (s.source src).byId.get? id with
    | none =>
      refine Or.inl ⟨fun hmem => ?_, rfl⟩
      rw [live_of_get hget, map_fst_entries] at hmem
      obtain ⟨n, hn, rfl⟩ := List.mem_map.mp hmem
      have hentry : ((s.notification n).id, n) ∈ (s.source src).byId.entries :=
        hentries ▸ List.mem_map_of_mem hn
      rw [Dict.get?_eq_some.mpr hentry] at hid
      cases hid
    | some n =>
      have hmem := Dict.get?_eq_some.mp hid
      rw [hentries] at hmem
      obtain ⟨m, hm, heq⟩ := List.mem_map.mp hmem
      obtain ⟨rfl, rfl⟩ := Prod.mk.inj heq
      exact Or.inr ⟨src, m, rfl, hm, rfl, rfl⟩

theorem ids_eq_iff (hget : s.sources.get? appId = some src)
    (hn : n ∈ (s.source src).notifications) :
    (s.live appId).map Prod.fst = [(s.notification n).id] ↔ (s.source src).notifications = [n] := by
  rw [live_of_get hget, map_fst_entries]
  constructor
  · intro hids
    obtain ⟨m, hm, hid⟩ := List.map_eq_singleton_iff.mp hids
    rw [hm] at hn ⊢
    rw [List.mem_singleton.mp hn]
  · intro hl
    rw [hl]
    rfl

theorem Inv.step {e : Event} (h : Inv s) (hcareful : Careful s e) (hstep : step s e = some t) :
    Inv t := by
  cases e with
  | addNotification appId id c now valid =>
    cases hstep
    exact h.addNotificationAsync now valid hcareful
  | removeNotification appId id =>
    cases hstep
    obtain ⟨-, heq⟩ | ⟨src, n, hget, hn, rfl, heq⟩ := h.removeNotificationAsync_eq appId id
    · rwa [heq]
    · rw [heq]
      apply h.destroyNotification hn
      exact fun hpending hl => hcareful src hget hpending ((ids_eq_iff hget hn).mpr hl)
  | destroyNotification n =>
    obtain ⟨hlisted, heq⟩ := Option.ite_none_right_eq_some.mp hstep
    cases heq
    exact h.destroyNotification hlisted hcareful
  | destroySource src =>
    obtain ⟨hget, heq⟩ := Option.ite_none_right_eq_some.mp hstep
    cases heq
    exact h.destroySource hget

theorem Inv.placed_of_consistent (h : Inv s) {now : ℕ} {valid : Bool}
    (haccepts : s.accepts (stamp c now) = true) (hid : id ∉ inherited)
    (hconsistent : Consistent (s.addNotificationAsync appId id c now valid)) :
    Placed s appId id := by
  cases hget : s.sources.get? appId with
  | none =>
    intro key hmem
    rw [live_of_none hget] at hmem
    cases hmem
  | some src =>
    obtain ⟨t, hadd, hadded⟩ := h.core.addNew hget haccepts hid
    have heq : s.addNotificationAsync appId id c now valid =
        t.remember appId id (stamp c now) := by
      rw [State.addNotificationAsync, ensureAppSource_of_get valid hget]
      dsimp only
      rw [hadd]
      rfl
    rw [heq] at hconsistent
    have hcore := hadded.core.remember appId id (stamp c now)
    have hstored : (t.remember appId id (stamp c now)).stored =
        (t.remember appId id (stamp c now)).serialization :=
      hadded.saved (hadded.isLoading.trans h.isLoading)
    -- the daemon that loads finds each app
    have hvalid : ∀ appId' ∈ (t.remember appId id (stamp c now)).sources.keys,
        (fun _ => true : String → Bool) appId' = true := fun _ _ => rfl
    have hloaded := hcore.live_load hstored hvalid appId
    rw [hcore.storedFor hstored] at hloaded
    have hrecreated := hconsistent.recreated (fun _ => true) (fun _ _ => rfl) appId
    have hordered := Dict.enumerate_eq_self_iff.mp (hloaded.symm.trans hrecreated)
    have hlive : (t.remember appId id (stamp c now)).live appId =
        Gtk.added (s.live appId) id (stamp c now) := (hadded.live appId).trans (if_pos rfl)
    rw [hlive, map_fst_added, Dict.pairwise_append_singleton] at hordered
    exact hordered.2

theorem Inv.careful_of_consistent {e : Event} (h : Inv s) (hstep : Gtk.step s e = some t)
    (hconsistent : Consistent t) : Careful s e := by
  cases e with
  | addNotification appId id c now valid =>
    cases hstep
    exact fun haccepts hid => h.placed_of_consistent haccepts hid hconsistent
  | removeNotification appId id =>
    cases hstep
    intro src hget hpending hids
    obtain ⟨hnot, -⟩ | ⟨src', n, hget', hn, rfl, heq⟩ := h.removeNotificationAsync_eq appId id
    · rw [hids] at hnot
      exact absurd (List.mem_singleton_self id) hnot
    · obtain rfl := Option.some.inj (hget'.symm.trans hget)
      rw [heq] at hconsistent
      exact h.not_gone ((ids_eq_iff hget hn).mp hids) hpending hconsistent
  | destroyNotification n =>
    obtain ⟨-, heq⟩ := Option.ite_none_right_eq_some.mp hstep
    cases heq
    exact fun hpending hl => h.not_gone hl hpending hconsistent
  | destroySource src => exact trivial

end Runs

end NotificationDaemon.Gtk
