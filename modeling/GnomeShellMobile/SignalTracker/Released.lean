import GnomeShellMobile.SignalTracker.Tracking
import Mathlib.Tactic.Tauto

/-!
# SignalTracker — the handlers of a pair are disconnected

* `Inv.untrack`: the handlers of one pair, and no others; `Inv.clear`: those of an owner.
* `Inv.destroy`: when an object is destroyed, those it owns and those that are tracked for it.
* `run_exact`: so after any sequence of calls exactly the handlers are connected that were not
  disconnected, a tracker records an object exactly if it has a handler for it, and no handler was
  disconnected twice.
-/

namespace SignalTracker

open Signals

variable {ο : Type} [DecidableEq ο] {env : Objects ο} {s : State ο} {o x obj : ο} {t : ℕ}

namespace State

variable {g : Handler (Callback ο)}

/-! ## What `untrack` disconnects -/

/-- The handlers that go when `obj` is no longer tracked for `o`, and if it was the `last` one. -/
def Gone (o obj : ο) (t : ℕ) (last : Bool) (y : ο) (callback : Callback ο) : Prop :=
  y = o ∧ callback.isFor obj = true ∨ y = obj ∧ callback = .untrack t obj ∨
    last = true ∧ y = o ∧ callback = .clear t
deriving Decidable

theorem Inv.mem_ownerSignals_iff (h : s.Inv env) (hg : g ∈ s.emitters.handlers o) :
    g.id ∈ s.ownerSignals o obj ↔ g.callback.isFor obj = true := by
  rw [← h.recorded, List.mem_map]
  constructor
  · rintro ⟨g', hg', hid⟩
    rw [handlersFor, List.mem_filter] at hg'
    rw [← h.sound.eq_of_id hg'.1 hg hid]
    exact hg'.2
  · intro hfor
    exact ⟨g, List.mem_filter.mpr ⟨hg, hfor⟩, rfl⟩

theorem Wired.destroyId_iff (h : s.Wired env) (ho : s.signalTrackers o = some t)
    (hg : g ∈ s.emitters.handlers obj) :
    (∃ data, (s.trackers t).map.get? obj = some data ∧ data.destroyId = some g.id) ↔
      g.callback = .untrack t obj := by
  constructor
  · rintro ⟨data, hdata, hid⟩
    have hwatched := (h.tracks o t ho).watched obj data hdata
    rw [hid] at hwatched
    exact (hwatched.name h.sound hg rfl).2.2
  · intro hc
    exact ((h.tracks o t ho).only obj g hg obj hc).2

theorem Wired.ownerDestroyId_iff (h : s.Wired env) (ho : s.signalTrackers o = some t)
    (hg : g ∈ s.emitters.handlers o) :
    (s.trackers t).ownerDestroyId = some g.id ↔ g.callback = .clear t := by
  constructor
  · intro hid
    have hwatched := h.clear o t ho
    rw [hid] at hwatched
    exact (hwatched.name h.sound hg rfl).2.2
  · intro hc
    exact (h.clear_only o g hg t hc).2

omit [DecidableEq ο] in
theorem Watched.exists {id : ℕ} {callback : Callback ο} (hw : s.Watched env (some id) x callback) :
    ∃ g ∈ s.emitters.handlers x, g.id = id ∧ g.callback = callback := by
  rw [Watched] at hw
  split at hw
  · obtain ⟨g, hg, hid, -, hc⟩ := hw
    exact ⟨g, hg, (Option.some.inj hid).symm, hc⟩
  · cases hw

theorem untrack_eq {d : Option SignalData} (obj : ο) (ho : (s.trackers t).owner = some o)
    (hdata : (s.trackers t).map.get? obj = d) : s.untrack t obj =
      (let e := (s.emitters.disconnectAll o (d.elim [] SignalData.ownerSignals)).disconnect? obj
          (d.bind SignalData.destroyId)
      if ((s.trackers t).map.erase obj).size = 0 then
        { emitters := e.disconnect? o (s.trackers t).ownerDestroyId
          signalTrackers := Function.update s.signalTrackers o none
          trackers := Function.update s.trackers t ⟨none, none, (s.trackers t).map.erase obj⟩
          nextTracker := s.nextTracker }
      else ({ s with emitters := e } : State ο).setMap t ((s.trackers t).map.erase obj)) := by
  obtain ⟨m, hget, hm⟩ : ∃ m, s.getSignalData t obj = (s.setMap t m, d.getD ⟨[], none⟩) ∧
      m.erase obj = (s.trackers t).map.erase obj := by
    cases d with
    | some data => exact ⟨_, by rw [setMap_self, getSignalData_some hdata]; rfl, rfl⟩
    | none => exact ⟨_, getSignalData_none hdata, Dict.erase_set ..⟩
  rw [untrack, hget]
  dsimp only
  rw [map_setMap, setMap_setMap, hm]
  have howner : ((s.setMap t ((s.trackers t).map.erase obj)).trackers t).owner = some o := by
    rw [← ho, State.setMap, setTracker]
    dsimp only
    rw [Function.update_self]
  rw [howner]
  dsimp only
  have hids : (d.getD ⟨[], none⟩).ownerSignals = d.elim [] SignalData.ownerSignals := by
    cases d <;> rfl
  have hdestroy : (d.getD ⟨[], none⟩).destroyId = d.bind SignalData.destroyId := by
    cases d <;> rfl
  rw [hids, hdestroy]
  have hmap : (((s.setMap t ((s.trackers t).map.erase obj)).trackers t).map) =
      (s.trackers t).map.erase obj := map_setMap ..
  rw [disconnectSignal, disconnectSignals]
  dsimp only
  rw [hmap]
  split
  · rw [removeTracker]
    dsimp only
    rw [howner]
    simp [State.setMap, setTracker, disconnectSignal]
  · rfl

/-- **What is disconnected**: one kind of handlers after another, each of them connected. -/
theorem Inv.untrack_emitters (h : s.Inv env) (ho : s.signalTrackers o = some t) (obj : ο) :
    ∃ e : Emitters ο (Callback ο), e.Sound ∧
      (∀ y, e.handlers y = (s.emitters.handlers y).filter fun g =>
        ¬ Gone o obj t (((s.trackers t).map.erase obj).size = 0) y g.callback) ∧
      s.untrack t obj =
        (if ((s.trackers t).map.erase obj).size = 0 then
          { emitters := e
            signalTrackers := Function.update s.signalTrackers o none
            trackers := Function.update s.trackers t ⟨none, none, (s.trackers t).map.erase obj⟩
            nextTracker := s.nextTracker }
        else ({ s with emitters := e } : State ο).setMap t ((s.trackers t).map.erase obj)) := by
  have huntrack := untrack_eq obj (h.owner o t ho).2 rfl
  have hids : ((s.trackers t).map.get? obj).elim [] SignalData.ownerSignals =
      s.ownerSignals o obj := by
    rw [ownerSignals, data?_eq ho]
  rw [hids] at huntrack
  -- the handlers that were passed in
  have hsound₁ : (s.emitters.disconnectAll o (s.ownerSignals o obj)).Sound := by
    apply h.sound.disconnectAll
    · rw [← h.recorded]
      exact (h.sound.nodup o).sublist (List.filter_sublist.map _)
    · intro id hid
      rw [← h.recorded] at hid
      obtain ⟨g, hg, rfl⟩ := List.mem_map.mp hid
      exact ⟨g, (List.mem_filter.mp hg).1, rfl⟩
  have hfirst : ∀ y, (s.emitters.disconnectAll o (s.ownerSignals o obj)).handlers y =
      (s.emitters.handlers y).filter fun g => ¬ (y = o ∧ g.callback.isFor obj = true) := by
    intro y
    rw [Emitters.handlers_disconnectAll]
    apply List.filter_congr
    intro g hg
    rw [decide_eq_decide, not_iff_not]
    apply and_congr_right
    rintro rfl
    exact h.mem_ownerSignals_iff hg
  generalize s.emitters.disconnectAll o (s.ownerSignals o obj) = e₁ at huntrack hsound₁ hfirst
  have hmem₁ : ∀ y g, g ∈ e₁.handlers y → g ∈ s.emitters.handlers y := by
    intro y g hg
    rw [hfirst] at hg
    exact List.mem_of_mem_filter hg
  have hkept₁ : ∀ y, ∀ g ∈ s.emitters.handlers y, g.callback.isFor obj = false →
      g ∈ e₁.handlers y := by
    intro y g hg hfor
    rw [hfirst, List.mem_filter]
    refine ⟨hg, decide_eq_true fun hc => ?_⟩
    rw [hfor] at hc
    exact Bool.false_ne_true hc.2
  -- the handler for `destroy` of the object
  obtain ⟨hsound₂, hsecond⟩ := hsound₁.disconnect? obj
    (((s.trackers t).map.get? obj).bind SignalData.destroyId) (fun g => g.callback = .untrack t obj) (by
      intro id hid
      obtain ⟨data, hdata, hid⟩ := Option.bind_eq_some_iff.mp hid
      have hwatched := (h.tracks o t ho).watched obj data hdata
      rw [hid] at hwatched
      obtain ⟨g, hg, heq, hc⟩ := hwatched.exists
      exact ⟨g, hkept₁ obj g hg (by rw [hc]; rfl), heq⟩) (by
      intro g hg
      rw [Option.bind_eq_some_iff]
      exact h.destroyId_iff ho (hmem₁ obj g hg))
  generalize e₁.disconnect? obj _ = e₂ at huntrack hsound₂ hsecond
  have hboth : ∀ y, e₂.handlers y = (s.emitters.handlers y).filter fun g =>
      ¬ (y = o ∧ g.callback.isFor obj = true ∨ y = obj ∧ g.callback = .untrack t obj) := by
    intro y
    rw [hsecond, hfirst, List.filter_filter]
    apply List.filter_congr
    intro g _
    rw [← Bool.decide_and, decide_eq_decide, not_or, and_comm]
  by_cases hlast : ((s.trackers t).map.erase obj).size = 0
  · -- and the one for `destroy` of the owner
    obtain ⟨hsound₃, hthird⟩ := hsound₂.disconnect? o (s.trackers t).ownerDestroyId
      (fun g => g.callback = .clear t) (by
        intro id hid
        have hwatched := h.clear o t ho
        rw [hid] at hwatched
        obtain ⟨g, hg, heq, hc⟩ := hwatched.exists
        refine ⟨g, ?_, heq⟩
        rw [hboth, List.mem_filter]
        refine ⟨hg, decide_eq_true ?_⟩
        rw [hc]
        rintro (⟨-, hfor⟩ | ⟨-, heq⟩)
        · exact Bool.false_ne_true hfor
        · cases heq) (by
        intro g hg
        rw [hboth] at hg
        exact h.ownerDestroyId_iff ho (List.mem_of_mem_filter hg))
    refine ⟨_, hsound₃, fun y => ?_, ?_⟩
    · rw [hthird, hboth, List.filter_filter]
      apply List.filter_congr
      intro g _
      rw [← Bool.decide_and, decide_eq_decide, Gone, decide_eq_true hlast]
      tauto
    · rw [huntrack, if_pos hlast, if_pos hlast]
  · refine ⟨e₂, hsound₂, fun y => ?_, ?_⟩
    · rw [hboth]
      apply List.filter_congr
      intro g _
      rw [decide_eq_decide, Gone, decide_eq_false hlast]
      tauto
    · rw [huntrack, if_neg hlast, if_neg hlast]

/-- From `s` to `s'` the handlers for `obj` on `o` are disconnected, and nothing else that was
passed in. -/
structure Drops (s s' : State ο) (o obj : ο) : Prop where
  handlersFor : ∀ o' obj', s'.handlersFor o' obj' =
    if o' = o ∧ obj' = obj then [] else s.handlersFor o' obj'
  data : ∀ o' obj', s'.data? o' obj' = if o' = o ∧ obj' = obj then none else s.data? o' obj'
  sublist : ∀ y, ∀ g ∈ s'.emitters.handlers y, g ∈ s.emitters.handlers y

theorem handlersFor_gone {e : Emitters ο (Callback ο)} {last : Bool}
    (he : ∀ y, e.handlers y = (s.emitters.handlers y).filter fun g =>
      ¬ Gone o obj t last y g.callback) (o' obj' : ο) :
    (e.handlers o').filter (fun g => g.callback.isFor obj') =
      if o' = o ∧ obj' = obj then [] else s.handlersFor o' obj' := by
  rw [he, List.filter_filter]
  split
  · rename_i hpair
    rw [List.filter_eq_nil_iff]
    rintro g - hg
    rw [Bool.and_eq_true, decide_eq_true_eq] at hg
    exact hg.2 (.inl ⟨hpair.1, hpair.2 ▸ hg.1⟩)
  · rename_i hpair
    rw [handlersFor]
    apply List.filter_congr
    intro g _
    cases hc : g.callback with
    | handler fn obj'' =>
      have hother : Callback.isFor obj' (.handler fn obj'') = true →
          ¬ Gone o obj t last o' (.handler fn obj'') := by
        intro hfor hgone
        rcases hgone with ⟨ho', hfor'⟩ | ⟨-, hc'⟩ | ⟨-, -, hc'⟩
        · refine hpair ⟨ho', ?_⟩
          exact (of_decide_eq_true hfor).symm.trans (of_decide_eq_true hfor')
        · cases hc'
        · cases hc'
      cases hfor : Callback.isFor obj' (.handler fn obj'') with
      | false => rfl
      | true => rw [Bool.true_and, decide_eq_true (hother hfor)]
    | clear t' => rfl
    | untrack t' obj'' => rfl

/-- **Step lemma.** An object is no longer tracked, and others are tracked for the owner. -/
theorem Wired.untrack_more (h : s.Wired env) (ho : s.signalTrackers o = some t)
    {e : Emitters ο (Callback ο)} (hsound : e.Sound)
    (he : ∀ y, e.handlers y = (s.emitters.handlers y).filter fun g =>
      ¬ Gone o obj t false y g.callback) :
    (({ s with emitters := e } : State ο).setMap t ((s.trackers t).map.erase obj)).Wired env := by
  have hmem : ∀ y g, g ∈ e.handlers y ↔
      g ∈ s.emitters.handlers y ∧ ¬ Gone o obj t false y g.callback := by
    intro y g
    rw [he, List.mem_filter, decide_eq_true_eq]
  -- the handlers of other trackers, and for other objects, are still there
  have hclear : ∀ y t', ∀ g ∈ s.emitters.handlers y, g.callback = .clear t' → g ∈ e.handlers y := by
    intro y t' g hg hc
    rw [hmem, hc]
    refine ⟨hg, ?_⟩
    rintro (⟨-, hfor⟩ | ⟨-, heq⟩ | ⟨hfalse, -⟩)
    · exact Bool.false_ne_true hfor
    · cases heq
    · exact Bool.false_ne_true hfalse
  have huntrack : ∀ y t' y', (t' ≠ t ∨ y ≠ obj) → ∀ g ∈ s.emitters.handlers y,
      g.callback = .untrack t' y' → g ∈ e.handlers y := by
    intro y t' y' hne g hg hc
    rw [hmem, hc]
    refine ⟨hg, ?_⟩
    rintro (⟨-, hfor⟩ | ⟨hy, heq⟩ | ⟨-, -, heq⟩)
    · exact Bool.false_ne_true hfor
    · cases heq
      rcases hne with hne | hne
      · exact hne rfl
      · exact hne hy
    · cases heq
  have hother : ∀ t', (Function.update s.trackers t
      { s.trackers t with map := (s.trackers t).map.erase obj } t').ownerDestroyId =
        (s.trackers t').ownerDestroyId ∧ (Function.update s.trackers t
      { s.trackers t with map := (s.trackers t).map.erase obj } t').owner =
        (s.trackers t').owner := by
    intro t'
    rw [Function.update_apply]
    split
    · rename_i heq
      rw [heq]
      exact ⟨rfl, rfl⟩
    · exact ⟨rfl, rfl⟩
  refine ⟨hsound, ?_, ?_, ?_, ?_, ?_⟩
  · intro o' t' ho'
    exact ⟨(h.owner o' t' ho').1, (hother t').2.trans (h.owner o' t' ho').2⟩
  · intro o' t' ho'
    show Watched env _ (Function.update s.trackers t _ t').ownerDestroyId o' _
    rw [(hother t').1]
    exact (h.clear o' t' ho').mono fun g hg hc => hclear o' t' g hg hc
  · intro y g hg t' hc
    obtain ⟨hy, hid⟩ := h.clear_only y g ((hmem y g).mp hg).1 t' hc
    exact ⟨hy, (hother t').1.trans hid⟩
  · intro o' t' ho'
    show Tracks env _ t' (Function.update s.trackers t _ t').map
    by_cases heq : t' = t
    · subst heq
      rw [Function.update_self]
      refine ⟨fun y data hdata => ?_, fun y g hg y' hc => ?_⟩
      · rw [Dict.get?_erase] at hdata
        split at hdata
        · cases hdata
        · rename_i hne
          exact ((h.tracks o' t' ho').watched y data hdata).mono fun g hg hc =>
            huntrack y t' y (.inr hne) g hg hc
      · obtain ⟨hg, hgone⟩ := (hmem y g).mp hg
        obtain ⟨rfl, data, hdata, hid⟩ := (h.tracks o' t' ho').only y g hg y' hc
        refine ⟨rfl, data, ?_, hid⟩
        rw [Dict.get?_erase, if_neg, hdata]
        rintro rfl
        exact hgone (.inr (.inl ⟨rfl, hc⟩))
    · rw [Function.update_of_ne heq]
      refine ⟨fun y data hdata => ?_, fun y g hg y' hc => ?_⟩
      · exact ((h.tracks o' t' ho').watched y data hdata).mono fun g hg hc =>
          huntrack y t' y (.inl heq) g hg hc
      · exact (h.tracks o' t' ho').only y g ((hmem y g).mp hg).1 y' hc
  · intro y g hg t' y' hc
    exact h.untrack_only y g ((hmem y g).mp hg).1 t' y' hc

/-- **Step lemma.** No object is tracked for the owner any more, and it has no tracker. -/
theorem Wired.untrack_last (h : s.Wired env) (ho : s.signalTrackers o = some t)
    (hsize : ((s.trackers t).map.erase obj).size = 0) {e : Emitters ο (Callback ο)}
    (hsound : e.Sound) (he : ∀ y, e.handlers y = (s.emitters.handlers y).filter fun g =>
      ¬ Gone o obj t true y g.callback) :
    Wired env
      { emitters := e
        signalTrackers := Function.update s.signalTrackers o none
        trackers := Function.update s.trackers t ⟨none, none, (s.trackers t).map.erase obj⟩
        nextTracker := s.nextTracker } := by
  have hmem : ∀ y g, g ∈ e.handlers y ↔
      g ∈ s.emitters.handlers y ∧ ¬ Gone o obj t true y g.callback := by
    intro y g
    rw [he, List.mem_filter, decide_eq_true_eq]
  -- another tracker, of another owner
  have hother : ∀ o' t', Function.update s.signalTrackers o none o' = some t' →
      s.signalTrackers o' = some t' ∧ o' ≠ o ∧ t' ≠ t := by
    intro o' t' ho'
    rw [Function.update_apply] at ho'
    split at ho'
    · cases ho'
    · rename_i hne
      refine ⟨ho', hne, ?_⟩
      rintro rfl
      exact hne (h.owner_inj ho ho')
  have hkept : ∀ o' t', s.signalTrackers o' = some t' → t' ≠ t →
      Function.update s.signalTrackers o none o' = some t' := by
    intro o' t' ho' hne
    rw [Function.update_of_ne, ho']
    rintro rfl
    exact hne (Option.some.inj (ho'.symm.trans ho))
  have htracker : ∀ t', t' ≠ t → ∀ y, ∀ g ∈ s.emitters.handlers y,
      (g.callback = .clear t' ∨ ∃ y', g.callback = .untrack t' y') → g ∈ e.handlers y := by
    intro t' hne y g hg hc
    refine (hmem y g).mpr ⟨hg, ?_⟩
    rintro (⟨-, hfor⟩ | ⟨-, heq⟩ | ⟨-, -, heq⟩) <;> rcases hc with hc | ⟨y', hc⟩
    · rw [hc] at hfor
      exact Bool.false_ne_true hfor
    · rw [hc] at hfor
      exact Bool.false_ne_true hfor
    · cases hc.symm.trans heq
    · cases hc.symm.trans heq
      exact hne rfl
    · cases hc.symm.trans heq
      exact hne rfl
    · cases hc.symm.trans heq
  refine ⟨hsound, ?_, ?_, ?_, ?_, ?_⟩
  · intro o' t' ho'
    obtain ⟨ho', -, hne⟩ := hother o' t' ho'
    refine ⟨(h.owner o' t' ho').1, ?_⟩
    show (Function.update s.trackers t _ t').owner = some o'
    rw [Function.update_of_ne hne]
    exact (h.owner o' t' ho').2
  · intro o' t' ho'
    obtain ⟨ho', -, hne⟩ := hother o' t' ho'
    show Watched env _ (Function.update s.trackers t _ t').ownerDestroyId o' _
    rw [Function.update_of_ne hne]
    exact (h.clear o' t' ho').mono fun g hg hc => htracker t' hne o' g hg (.inl hc)
  · intro y g hg t' hc
    obtain ⟨hg, hgone⟩ := (hmem y g).mp hg
    obtain ⟨hy, hid⟩ := h.clear_only y g hg t' hc
    have hne : t' ≠ t := by
      rintro rfl
      exact hgone (.inr (.inr ⟨rfl, h.owner_inj ho hy, hc⟩))
    refine ⟨hkept y t' hy hne, ?_⟩
    show (Function.update s.trackers t _ t').ownerDestroyId = some g.id
    rw [Function.update_of_ne hne]
    exact hid
  · intro o' t' ho'
    obtain ⟨ho', -, hne⟩ := hother o' t' ho'
    show Tracks env _ t' (Function.update s.trackers t _ t').map
    rw [Function.update_of_ne hne]
    refine ⟨fun y data hdata => ?_, fun y g hg y' hc => ?_⟩
    · exact ((h.tracks o' t' ho').watched y data hdata).mono fun g hg hc =>
        htracker t' hne y g hg (.inr ⟨y, hc⟩)
    · exact (h.tracks o' t' ho').only y g ((hmem y g).mp hg).1 y' hc
  · intro y g hg t' y' hc
    obtain ⟨hold, hgone⟩ := (hmem y g).mp hg
    obtain ⟨o', ho'⟩ := h.untrack_only y g hold t' y' hc
    refine ⟨o', hkept o' t' ho' ?_⟩
    rintro rfl
    -- the object is the one that is no longer tracked
    obtain ⟨rfl, data, hdata, -⟩ := (h.tracks o t' ho).only y g hold y' hc
    by_cases hy : y' = obj
    · subst hy
      exact hgone (.inr (.inl ⟨rfl, hc⟩))
    · have hnone := Dict.get?_of_size_eq_zero hsize y'
      rw [Dict.get?_erase_of_ne _ hy] at hnone
      cases hnone.symm.trans hdata

section

variable (h : s.Inv env)
include h

theorem Inv.of_drops {s' : State ο} (hwired : s'.Wired env)
    (hdrops : s.Drops s' o obj)
    (hmanager : ∀ o', o' ≠ o → s'.signalTrackers o' = s.signalTrackers o')
    (hleft : s'.signalTrackers o = none ∨ ∃ obj', s'.Records o obj') : s'.Inv env where
  toWired := hwired
  recorded o' obj' := by
    rw [hdrops.handlersFor, ownerSignals, hdrops.data]
    split
    · rfl
    · exact h.recorded o' obj'
  live o' obj' hrec := by
    rw [Records, hdrops.data] at hrec
    rw [hdrops.handlersFor]
    split
    · rename_i hpair
      rw [if_pos hpair] at hrec
      cases hrec
    · rename_i hpair
      rw [if_neg hpair] at hrec
      exact h.live o' obj' hrec
  nonempty o' t' ho' := by
    by_cases heq : o' = o
    · subst heq
      rcases hleft with hnone | hrec
      · cases hnone.symm.trans ho'
      · exact hrec
    · rw [hmanager o' heq] at ho'
      obtain ⟨obj', hrec⟩ := h.nonempty o' t' ho'
      exact ⟨obj', by rw [Records, hdrops.data, if_neg fun hc => heq hc.1]; exact hrec⟩

/-- **The handlers of one pair are disconnected.** -/
theorem Inv.untrack (ho : s.signalTrackers o = some t) (obj : ο) :
    (s.untrack t obj).Inv env ∧ s.Drops (s.untrack t obj) o obj ∧
      (s.untrack t obj).signalTrackers o =
        (if ((s.trackers t).map.erase obj).size = 0 then none else some t) ∧
      ((s.untrack t obj).trackers t).map = (s.trackers t).map.erase obj := by
  obtain ⟨e, hsound, he, heq⟩ := h.untrack_emitters ho obj
  have hsublist : ∀ y, ∀ g ∈ e.handlers y, g ∈ s.emitters.handlers y := by
    intro y g hg
    rw [he] at hg
    exact List.mem_of_mem_filter hg
  rw [heq]
  by_cases hsize : ((s.trackers t).map.erase obj).size = 0
  · rw [if_pos hsize, if_pos hsize]
    rw [decide_eq_true hsize] at he
    have hwired := h.toWired.untrack_last ho hsize hsound he
    have hdrops : s.Drops
        { emitters := e
          signalTrackers := Function.update s.signalTrackers o none
          trackers := Function.update s.trackers t ⟨none, none, (s.trackers t).map.erase obj⟩
          nextTracker := s.nextTracker } o obj := by
      refine ⟨handlersFor_gone he, fun o' obj' => ?_, hsublist⟩
      by_cases ho' : o' = o
      · subst ho'
        rw [data?_none (Function.update_self ..), data?_eq ho]
        split
        · rfl
        · rename_i hpair
          have hne : obj' ≠ obj := fun hc => hpair ⟨rfl, hc⟩
          rw [← Dict.get?_erase_of_ne _ hne, Dict.get?_of_size_eq_zero hsize]
      · rw [if_neg fun hc => ho' hc.1, data?, data?]
        dsimp only
        rw [Function.update_of_ne ho']
        cases ht' : s.signalTrackers o' with
        | none => rfl
        | some t' =>
          rw [Option.bind_some, Option.bind_some, Function.update_of_ne]
          rintro rfl
          exact ho' (h.owner_inj ho ht')
    refine ⟨h.of_drops hwired hdrops ?_ (.inl (Function.update_self ..)), hdrops,
      Function.update_self .., ?_⟩
    · exact fun o' hne => Function.update_of_ne hne ..
    · show (Function.update s.trackers t _ t).map = _
      rw [Function.update_self]
  · rw [if_neg hsize, if_neg hsize]
    rw [decide_eq_false hsize] at he
    have hwired := h.toWired.untrack_more ho hsound he
    have hdrops : s.Drops
        (({ s with emitters := e } : State ο).setMap t ((s.trackers t).map.erase obj)) o obj := by
      refine ⟨handlersFor_gone he, fun o' obj' => ?_, hsublist⟩
      rw [data?_setMap h.toWired ho]
      by_cases ho' : o' = o
      · subst ho'
        rw [if_pos rfl, Dict.get?_erase, data?_eq ho]
        simp
      · rw [if_neg ho', if_neg fun hc => ho' hc.1]
    refine ⟨h.of_drops hwired hdrops (fun _ _ => rfl) (.inr ?_), hdrops, ho, map_setMap ..⟩
    obtain ⟨obj', data, hdata⟩ := Dict.exists_of_size_ne_zero hsize
    refine ⟨obj', ?_⟩
    rw [Records, data?_setMap h.toWired ho, if_pos rfl, hdata]
    rfl

theorem Inv.handlersFor_none (ho : s.signalTrackers o = none) (obj : ο) :
    s.handlersFor o obj = [] := by
  have hids := h.recorded o obj
  rw [ownerSignals, data?_none ho] at hids
  exact List.map_eq_nil_iff.mp hids

theorem Inv.disconnectObject (thisObj obj : ο) :
    (s.disconnectObject thisObj obj).Inv env ∧ ∀ o obj',
      (s.disconnectObject thisObj obj).handlersFor o obj' =
        if o = thisObj ∧ obj' = obj then [] else s.handlersFor o obj' := by
  rw [State.disconnectObject]
  cases ho : s.signalTrackers thisObj with
  | none =>
    refine ⟨h, fun o obj' => ?_⟩
    show s.handlersFor o obj' = _
    split
    · rename_i hpair
      exact h.handlersFor_none (hpair.1 ▸ ho) obj'
    · rfl
  | some t =>
    obtain ⟨hinv, hdrops, -⟩ := h.untrack ho obj
    exact ⟨hinv, hdrops.handlersFor⟩

end

/-! ## An owner -/

/-- The handlers for all objects on `o` are disconnected, and no others. -/
structure Clears (s s' : State ο) (o : ο) : Prop where
  signalTrackers : s'.signalTrackers o = none
  handlersFor : ∀ o' obj', s'.handlersFor o' obj' =
    if o' = o then [] else s.handlersFor o' obj'
  sublist : ∀ y, ∀ g ∈ s'.emitters.handlers y, g ∈ s.emitters.handlers y

/-- The loop of `clear`. Induction on the objects that are left in the map. -/
theorem Inv.clear_keys (h : s.Inv env) (ho : s.signalTrackers o = some t) {keys : List ο}
    (hkeys : (s.trackers t).map.keys = keys) :
    (keys.foldl (fun s obj => s.untrack t obj) s).Inv env ∧
      s.Clears (keys.foldl (fun s obj => s.untrack t obj) s) o := by
  induction keys generalizing s with
  | nil =>
    obtain ⟨obj, hrec⟩ := h.nonempty o t ho
    obtain ⟨data, hdata⟩ := hrec.data
    rw [data?_eq ho] at hdata
    have hmem := Dict.mem_keys_iff.mpr ⟨data, hdata⟩
    rw [hkeys] at hmem
    cases hmem
  | cons k ks ih =>
    obtain ⟨hinv, hdrops, hmanager, hmap⟩ := h.untrack ho k
    have hks : ((s.trackers t).map.erase k).keys = ks := by
      have hnodup : (k :: ks).Nodup := hkeys ▸ (s.trackers t).map.nodup
      rw [Dict.keys_erase, hkeys, List.filter_cons, if_neg (by simp), List.filter_eq_self]
      intro y hy
      apply decide_eq_true
      rintro rfl
      exact (List.nodup_cons.mp hnodup).1 hy
    rw [List.foldl_cons]
    by_cases hsize : ((s.trackers t).map.erase k).size = 0
    · -- the last one
      rw [if_pos hsize] at hmanager
      have hnil : ks = [] := by
        rw [← hks, Dict.keys, List.length_eq_zero_iff.mp hsize]
        rfl
      rw [hnil, List.foldl_nil]
      refine ⟨hinv, hmanager, fun o' obj' => ?_, hdrops.sublist⟩
      split
      · rename_i heq
        exact hinv.handlersFor_none (heq ▸ hmanager) obj'
      · rename_i hne
        rw [hdrops.handlersFor, if_neg fun hc => hne hc.1]
    · rw [if_neg hsize] at hmanager
      obtain ⟨hinv', hclears⟩ := ih hinv hmanager (hmap ▸ hks)
      refine ⟨hinv', hclears.signalTrackers, fun o' obj' => ?_,
        fun y g hg => hdrops.sublist y g (hclears.sublist y g hg)⟩
      rw [hclears.handlersFor]
      split
      · rfl
      · rename_i hne
        rw [hdrops.handlersFor, if_neg fun hc => hne hc.1]

theorem Inv.clear_tracker (h : s.Inv env) (ho : s.signalTrackers o = some t) :
    (s.clear t).Inv env ∧ s.Clears (s.clear t) o :=
  h.clear_keys ho rfl

/-! ## `destroy` -/

/-- What is so while `x` emits `destroy`, and `calls` are still to be called: only handlers for
pairs with `x` have been disconnected, and a tracker that is still watching `x` is still to be
called. -/
structure Destroying (env : Objects ο) (s : State ο) (x : ο)
    (calls : List (Handler (Callback ο))) (s' : State ο) : Prop extends Inv env s' where
  others : ∀ o obj, o ≠ x → obj ≠ x → s'.handlersFor o obj = s.handlersFor o obj
  sublist : ∀ g ∈ s'.emitters.handlers x, g ∈ s.emitters.handlers x
  known : ∀ g ∈ calls, g ∈ s.emitters.handlers x
  calls : ∀ g ∈ s'.emitters.handlers x, (∃ fn obj, g.callback = .handler fn obj) ∨ g ∈ calls

theorem Wired.clear_name (h : s.Wired env)
    (hg : g ∈ s.emitters.handlers x) (hc : g.callback = .clear t) : g.signalName = "destroy" := by
  obtain ⟨hx, hid⟩ := h.clear_only x g hg t hc
  have hwatched := h.clear x t hx
  rw [hid] at hwatched
  exact (hwatched.name h.sound hg rfl).2.1

theorem Wired.untrack_name (h : s.Wired env)
    (hg : g ∈ s.emitters.handlers x) (hc : g.callback = .untrack t obj) :
    g.signalName = "destroy" := by
  obtain ⟨o, ho⟩ := h.untrack_only x g hg t obj hc
  obtain ⟨-, data, hdata, hid⟩ := (h.tracks o t ho).only x g hg obj hc
  have hwatched := (h.tracks o t ho).watched x data hdata
  rw [hid] at hwatched
  exact (hwatched.name h.sound hg rfl).2.1

/-- **Step lemma.** One handler is called. -/
theorem Destroying.call {s' : State ο}
    {calls : List (Handler (Callback ο))} (h : Destroying env s x (g :: calls) s')
    (hg : g ∈ s'.emitters.handlers x) : Destroying env s x calls (s'.call g.callback) := by
  -- what is left is still to be called, if it is not the handler that was called
  have hleft : ∀ s'' : State ο, (∀ y ∈ s''.emitters.handlers x, y ∈ s'.emitters.handlers x) →
      g ∉ s''.emitters.handlers x → ∀ g' ∈ s''.emitters.handlers x,
        (∃ fn obj, g'.callback = .handler fn obj) ∨ g' ∈ calls := by
    intro s'' hsub hgone g' hg'
    rcases h.calls g' (hsub g' hg') with hfn | hmem
    · exact .inl hfn
    · rcases List.mem_cons.mp hmem with rfl | hmem
      · exact absurd hg' hgone
      · exact .inr hmem
  have hknown : ∀ g' ∈ calls, g' ∈ s.emitters.handlers x :=
    fun g' hg' => h.known g' (List.mem_cons_of_mem _ hg')
  cases hc : g.callback with
  | handler fn obj =>
    refine ⟨h.toInv, h.others, h.sublist, hknown, fun g' hg' => ?_⟩
    rcases h.calls g' hg' with hfn | hmem
    · exact .inl hfn
    · rcases List.mem_cons.mp hmem with rfl | hmem
      · exact .inl ⟨fn, obj, hc⟩
      · exact .inr hmem
  | clear t =>
    obtain ⟨hx, -⟩ := h.clear_only x g hg t hc
    obtain ⟨hinv, hclears⟩ := h.toInv.clear_tracker hx
    refine ⟨hinv, fun o obj ho hobj => ?_, fun y hy => h.sublist y (hclears.sublist x y hy), hknown,
      hleft _ (hclears.sublist x) fun hgone => ?_⟩
    · show (s'.clear t).handlersFor o obj = _
      rw [hclears.handlersFor, if_neg ho, h.others o obj ho hobj]
    · obtain ⟨hx', -⟩ := hinv.clear_only x g hgone t hc
      cases hclears.signalTrackers.symm.trans hx'
  | untrack t obj =>
    obtain ⟨o, ho⟩ := h.untrack_only x g hg t obj hc
    obtain ⟨rfl, -⟩ := (h.tracks o t ho).only x g hg obj hc
    obtain ⟨hinv, hdrops, -, hmap⟩ := h.toInv.untrack ho obj
    refine ⟨hinv, fun o' obj' ho' hobj' => ?_,
      fun y hy => h.sublist y (hdrops.sublist obj y hy), hknown,
      hleft _ (hdrops.sublist obj) fun hgone => ?_⟩
    · show (s'.untrack t obj).handlersFor o' obj' = _
      rw [hdrops.handlersFor, if_neg fun hpair => hobj' hpair.2, h.others o' obj' ho' hobj']
    · obtain ⟨o', ho'⟩ := hinv.untrack_only obj g hgone t obj hc
      obtain ⟨-, data, hdata, -⟩ := (hinv.tracks o' t ho').only obj g hgone obj hc
      rw [hmap, Dict.get?_erase_self] at hdata
      cases hdata

/-- **An object is destroyed**: the handlers of every pair with the object are disconnected, and no
others. -/
theorem Inv.destroy (h : s.Inv env) (x : ο) :
    (s.destroy env x).Inv env ∧ ∀ o obj, (s.destroy env x).handlersFor o obj =
      if env.hasDestroySignal x = true ∧ (o = x ∨ obj = x) then [] else s.handlersFor o obj := by
  rw [State.destroy]
  by_cases hdestroy : env.hasDestroySignal x = true
  swap
  · rw [if_neg hdestroy]
    refine ⟨h, fun o obj => ?_⟩
    rw [if_neg fun hc => hdestroy hc.1]
  rw [if_pos hdestroy, emit]
  have hend : Destroying env s x []
      (callAll State.emitters call x (s.emitters.emission x "destroy") s) := by
    apply callAll_rule (I := fun calls s' => Destroying env s x calls s')
    · refine ⟨h, fun _ _ _ _ => rfl, fun _ => id, fun g hg => (Emitters.mem_emission.mp hg).1,
        fun g hg => ?_⟩
      cases hc : g.callback with
      | handler fn obj => exact .inl ⟨fn, obj, rfl⟩
      | clear t => exact .inr (Emitters.mem_emission.mpr ⟨hg, h.clear_name hg hc⟩)
      | untrack t obj => exact .inr (Emitters.mem_emission.mpr ⟨hg, h.untrack_name hg hc⟩)
    · rintro g calls s' hs' ⟨g', hg', hid⟩
      -- there is only one handler with this id
      have heq : g' = g :=
        h.sound.eq_of_id (hs'.sublist g' hg') (hs'.known g List.mem_cons_self) hid
      exact hs'.call (heq ▸ hg')
    · intro g calls s' hs' hgone
      refine ⟨hs'.toInv, hs'.others, hs'.sublist,
        fun g' hg' => hs'.known g' (List.mem_cons_of_mem _ hg'), fun g' hg' => ?_⟩
      rcases hs'.calls g' hg' with hfn | hmem
      · exact .inl hfn
      · rcases List.mem_cons.mp hmem with rfl | hmem
        · exact absurd rfl (hgone g' hg')
        · exact .inr hmem
  generalize callAll State.emitters call x (s.emitters.emission x "destroy") s = s' at hend ⊢
  -- no tracker watches the object any more
  have hnone : ∀ id callback, s'.Watched env id x callback →
      ∃ fn obj, callback = .handler fn obj := by
    intro id callback hw
    rw [Watched, if_pos hdestroy] at hw
    obtain ⟨g, hg, -, -, hc⟩ := hw
    rcases hend.calls g hg with ⟨fn, obj, hfn⟩ | hmem
    · exact ⟨fn, obj, hc.symm.trans hfn⟩
    · cases hmem
  refine ⟨hend.toInv, fun o obj => ?_⟩
  by_cases hpair : o = x ∨ obj = x
  · rw [if_pos ⟨hdestroy, hpair⟩]
    cases ho : s'.signalTrackers o with
    | none => exact hend.handlersFor_none ho obj
    | some t =>
      rcases hpair with rfl | rfl
      · obtain ⟨fn, obj', hfn⟩ := hnone _ _ (hend.clear o t ho)
        cases hfn
      · have hids := hend.recorded o obj
        rw [ownerSignals, data?_eq ho] at hids
        cases hdata : (s'.trackers t).map.get? obj with
        | none =>
          rw [hdata] at hids
          exact List.map_eq_nil_iff.mp hids
        | some data =>
          obtain ⟨fn, obj', hfn⟩ := hnone _ _ ((hend.tracks o t ho).watched obj data hdata)
          cases hfn
  · rw [if_neg fun hc => hpair hc.2]
    exact hend.others o obj (fun hc => hpair (.inl hc)) fun hc => hpair (.inr hc)

end State

/-! ## Runs -/

abbrev Connections (ο : Type) := ο → ο → List (String × ℕ × Bool)

def expectedStep (env : Objects ο) (c : Connections ο) : Op ο → Connections ο
  | .connectObject thisObj pairs obj => fun o obj' =>
    c o obj' ++
      if o = thisObj ∧ obj.getD env.globalThis = obj' then
        (pairs.takeWhile (State.connects env thisObj)).map (State.connected env thisObj)
      else []
  | .disconnectObject thisObj obj => fun o obj' =>
    if o = thisObj ∧ obj' = obj then [] else c o obj'
  | .destroy x => fun o obj =>
    if env.hasDestroySignal x = true ∧ (o = x ∨ obj = x) then [] else c o obj

def expected (env : Objects ο) (ops : List (Op ο)) : Connections ο :=
  ops.foldl (expectedStep env) fun _ _ => []

/-- A call of `connectObject` connects all of its pairs, at least one, or none and throws. -/
def Op.Clean (env : Objects ο) : Op ο → Prop
  | .connectObject thisObj pairs _ => State.Clean env thisObj pairs
  | _ => True

instance (env : Objects ο) : DecidablePred (Op.Clean env) := fun op => by
  cases op <;> unfold Op.Clean <;> infer_instance

structure Exact (s : State ο) (c : Connections ο) : Prop where
  connected : ∀ o obj, (s.handlersFor o obj).map State.shape = c o obj
  records : ∀ o obj, s.Records o obj ↔ s.handlersFor o obj ≠ []
  once : s.emitters.disconnected.Nodup
  gone : ∀ p ∈ s.emitters.disconnected, ∀ h ∈ s.emitters.handlers p.1, h.id ≠ p.2

theorem State.Inv.new : (State.new : State ο).Inv env where
  sound := .empty
  owner _ _ ho := by cases ho
  clear _ _ ho := by cases ho
  clear_only _ _ hg := absurd hg List.not_mem_nil
  tracks _ _ ho := by cases ho
  untrack_only _ _ hg := absurd hg List.not_mem_nil
  recorded _ _ := rfl
  live _ _ hrec := by cases hrec
  nonempty _ _ ho := by cases ho

/-- **Step lemma.** One case for each call. -/
theorem State.Inv.perform (h : s.Inv env) {c : Connections ο}
    (hconn : ∀ o obj, (s.handlersFor o obj).map State.shape = c o obj) (op : Op ο)
    (hclean : op.Clean env) : (SignalTracker.perform env s op).Inv env ∧ ∀ o obj,
      ((SignalTracker.perform env s op).handlersFor o obj).map State.shape =
        expectedStep env c op o obj := by
  cases op with
  | connectObject thisObj pairs obj =>
    obtain ⟨hinv, hshape⟩ := h.connectObject thisObj pairs obj hclean
    refine ⟨hinv, fun o obj' => ?_⟩
    dsimp only [expectedStep]
    rw [← hconn]
    exact hshape o obj'
  | disconnectObject thisObj obj =>
    obtain ⟨hinv, hfor⟩ := h.disconnectObject thisObj obj
    refine ⟨hinv, fun o obj' => ?_⟩
    show ((s.disconnectObject thisObj obj).handlersFor o obj').map State.shape = _
    dsimp only [expectedStep]
    rw [hfor, ← hconn]
    split <;> rfl
  | destroy x =>
    obtain ⟨hinv, hfor⟩ := h.destroy x
    refine ⟨hinv, fun o obj => ?_⟩
    show ((s.destroy env x).handlersFor o obj).map State.shape = _
    dsimp only [expectedStep]
    rw [hfor, ← hconn]
    split <;> rfl

/-- **Whole runs.** After any calls of which those of `connectObject` connect what they are given,
exactly the handlers are connected that are expected, the trackers record exactly the objects they
have handlers for, and no handler was disconnected twice. Induction on the calls. -/
theorem run_exact (env : Objects ο) (ops : List (Op ο)) (hclean : ∀ op ∈ ops, op.Clean env) :
    Exact (run env ops) (expected env ops) := by
  have hrun : ∀ (s : State ο) (c : Connections ο), s.Inv env →
      (∀ o obj, (s.handlersFor o obj).map State.shape = c o obj) →
      (ops.foldl (perform env) s).Inv env ∧ ∀ o obj,
        ((ops.foldl (perform env) s).handlersFor o obj).map State.shape =
          ops.foldl (expectedStep env) c o obj := by
    induction ops with
    | nil => exact fun s c hs hconn => ⟨hs, hconn⟩
    | cons op ops ih =>
      intro s c hs hconn
      obtain ⟨hop, hops⟩ := List.forall_mem_cons.mp hclean
      obtain ⟨hs', hconn'⟩ := hs.perform hconn op hop
      exact ih hops _ _ hs' hconn'
  obtain ⟨hinv, hconn⟩ := hrun .new (fun _ _ => []) .new fun _ _ => rfl
  exact ⟨hconn, hinv.records_iff, hinv.sound.once, fun p hp => (hinv.sound.gone p hp).2⟩

def widgets : Objects ℕ where
  hasDestroySignal x := x < 2
  isGObject _ := true
  hasSignal _ signalName := signalName ≠ "missing"
  globalThis := 9

def shared : List (Op ℕ) :=
  [.connectObject 0 [⟨"destroy", 0, none⟩, ⟨"signal1", 1, some 1⟩] (some 0),
    .connectObject 0 [⟨"signal1", 2, none⟩] (some 1), .connectObject 2 [⟨"signal2", 3, none⟩] (some 0),
    .connectObject 2 [⟨"signal2", 4, some 0⟩] none, .connectObject 2 [⟨"signal2", 5, none⟩] none,
    .disconnectObject 0 1, .destroy 0, .destroy 1]

theorem run_exact_shared : Exact (run widgets shared) (expected widgets shared) :=
  run_exact widgets shared (by decide)

/-- The flags of the second pair are `DEFAULT`, which is 0 and taken for an invalid value. -/
def defaultFlags : List (Op ℕ) :=
  [.connectObject 0 [⟨"signal1", 0, none⟩, ⟨"signal2", 1, some 0⟩] (some 1), .disconnectObject 0 1]

/-- The first handler is connected but not tracked, and `disconnectObject` does not find it. -/
theorem not_records_iff : ¬ ∀ (env : Objects ℕ) (ops : List (Op ℕ)) (o obj : ℕ),
      (run env ops).Records o obj ↔ (run env ops).handlersFor o obj ≠ [] := by
  intro h
  have hrecords := (h widgets defaultFlags 0 1).mpr (by decide)
  revert hrecords
  decide

end SignalTracker
