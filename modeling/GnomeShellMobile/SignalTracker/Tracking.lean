import GnomeShellMobile.SignalTracker.Tracker

/-!
# SignalTracker — what the trackers know of the handlers

* `Wired`: the handlers that the trackers connect for themselves, which is so at every moment.
* `Inv`: between two calls a tracker also has the ids of exactly the handlers it is to disconnect.
* One lemma for each function that connects: `Wired.connectSignals`, `Wired.getSignalTracker`,
  `Wired.track`; together `Inv.connectObject`.
-/

namespace SignalTracker

open Signals

variable {ο : Type} [DecidableEq ο] {env : Objects ο} {s : State ο} {o x obj : ο} {t : ℕ}

namespace State

variable (env)

def Watched (s : State ο) (id : Option ℕ) (x : ο) (callback : Callback ο) : Prop :=
  if env.hasDestroySignal x then
    ∃ h ∈ s.emitters.handlers x, id = some h.id ∧ h.signalName = "destroy" ∧ h.callback = callback
  else id = none

structure Tracks (s : State ο) (t : ℕ) (map : Dict ο SignalData) : Prop where
  watched : ∀ obj data, map.get? obj = some data →
    s.Watched env data.destroyId obj (.untrack t obj)
  only : ∀ x, ∀ h ∈ s.emitters.handlers x, ∀ obj, h.callback = .untrack t obj →
    obj = x ∧ ∃ data, map.get? x = some data ∧ data.destroyId = some h.id

structure Wired (s : State ο) : Prop where
  sound : s.emitters.Sound
  owner : ∀ o t, s.signalTrackers o = some t → t < s.nextTracker ∧ (s.trackers t).owner = some o
  clear : ∀ o t, s.signalTrackers o = some t →
    s.Watched env (s.trackers t).ownerDestroyId o (.clear t)
  clear_only : ∀ x, ∀ h ∈ s.emitters.handlers x, ∀ t, h.callback = .clear t →
    s.signalTrackers x = some t ∧ (s.trackers t).ownerDestroyId = some h.id
  tracks : ∀ o t, s.signalTrackers o = some t → s.Tracks env t (s.trackers t).map
  untrack_only : ∀ x, ∀ h ∈ s.emitters.handlers x, ∀ t obj, h.callback = .untrack t obj →
    ∃ o, s.signalTrackers o = some t

variable {env}

/-- The ids that the tracker of `owner` keeps for `obj`. -/
def ownerSignals (s : State ο) (owner obj : ο) : List ℕ :=
  (s.data? owner obj).elim [] SignalData.ownerSignals

structure Inv (env : Objects ο) (s : State ο) : Prop extends Wired env s where
  recorded : ∀ o obj, (s.handlersFor o obj).map Handler.id = s.ownerSignals o obj
  live : ∀ o obj, s.Records o obj → s.handlersFor o obj ≠ []
  nonempty : ∀ o t, s.signalTrackers o = some t → ∃ obj, s.Records o obj

/-! ## Facts that follow -/

theorem data?_eq (h : s.signalTrackers o = some t) (obj : ο) :
    s.data? o obj = (s.trackers t).map.get? obj := by
  rw [data?, h]
  rfl

theorem data?_none (h : s.signalTrackers o = none) (obj : ο) : s.data? o obj = none := by
  rw [data?, h]
  rfl

theorem Wired.owner_inj (h : s.Wired env) {o' : ο} (ho : s.signalTrackers o = some t)
    (ho' : s.signalTrackers o' = some t) : o' = o :=
  Option.some.inj ((h.owner o' t ho').2.symm.trans (h.owner o t ho).2)

omit [DecidableEq ο] in
theorem Watched.name {id : ℕ} {callback : Callback ο} (hw : s.Watched env (some id) x callback)
    (hs : s.emitters.Sound) {h : Handler (Callback ο)} (hh : h ∈ s.emitters.handlers x) (hid : h.id = id) :
    env.hasDestroySignal x = true ∧ h.signalName = "destroy" ∧ h.callback = callback := by
  rw [Watched] at hw
  split at hw
  · rename_i hdestroy
    obtain ⟨h', hh', heq, hname, hcallback⟩ := hw
    have hsame : h = h' := hs.eq_of_id hh hh' (hid.trans (Option.some.inj heq))
    rw [hsame]
    exact ⟨hdestroy, hname, hcallback⟩
  · cases hw

omit [DecidableEq ο] in
theorem Watched.mono {s' : State ο} {id : Option ℕ} {callback : Callback ο}
    (hw : s.Watched env id x callback)
    (hmono : ∀ h ∈ s.emitters.handlers x, h.callback = callback → h ∈ s'.emitters.handlers x) :
    s'.Watched env id x callback := by
  rw [Watched] at hw ⊢
  split at hw
  · rename_i hdestroy
    obtain ⟨h, hh, hid, hname, hcallback⟩ := hw
    rw [if_pos hdestroy]
    exact ⟨h, hmono h hh hcallback, hid, hname, hcallback⟩
  · rename_i hdestroy
    rw [if_neg hdestroy]
    exact hw

theorem Records.data (h : s.Records o obj) : ∃ data, s.data? o obj = some data :=
  Option.isSome_iff_exists.mp h

theorem Inv.records_iff (h : s.Inv env) (o obj : ο) :
    s.Records o obj ↔ s.handlersFor o obj ≠ [] := by
  refine ⟨h.live o obj, fun hne => ?_⟩
  by_contra hrec
  have hdata : s.data? o obj = none := Option.not_isSome_iff_eq_none.mp hrec
  have hids := h.recorded o obj
  rw [ownerSignals, hdata] at hids
  exact hne (List.map_eq_nil_iff.mp hids)

/-! ## Handlers of `connectObject` -/

theorem handlersFor_connect (s : State ο) (x : ο) (name : String) (after : Bool)
    (callback : Callback ο) (o obj : ο) :
    (s.connect x name after callback).handlersFor o obj = s.handlersFor o obj ++
      if o = x ∧ callback.isFor obj then [⟨s.emitters.nextId, name, after, callback⟩] else [] := by
  show ((s.emitters.connect x name after callback).handlers o).filter _ = _
  rw [Emitters.handlers_connect, List.filter_append]
  congr 1
  by_cases ho : o = x
  · rw [if_pos ho, List.filter_singleton]
    by_cases hfor : callback.isFor obj = true
    · rw [if_pos ⟨ho, hfor⟩, hfor]
      rfl
    · rw [if_neg fun h => hfor h.2, Bool.eq_false_iff.mpr hfor]
      rfl
  · rw [if_neg ho, if_neg fun h => ho h.1]
    rfl

theorem Wired.connectHandler (h : s.Wired env) (x : ο) (name : String) (after : Bool) (fn : ℕ)
    (obj : ο) : (s.connect x name after (.handler fn obj)).Wired env := by
  have hold : ∀ y, ∀ g ∈ s.emitters.handlers y,
      g ∈ (s.connect x name after (.handler fn obj)).emitters.handlers y :=
    fun y g hg => Emitters.mem_handlers_connect.mpr (.inl hg)
  have hnew : ∀ y, ∀ g ∈ (s.connect x name after (.handler fn obj)).emitters.handlers y,
      g ∈ s.emitters.handlers y ∨ g.callback = .handler fn obj := by
    intro y g hg
    rcases Emitters.mem_handlers_connect.mp hg with hg | ⟨-, rfl⟩
    · exact .inl hg
    · exact .inr rfl
  refine ⟨h.sound.connect .., h.owner, ?_, ?_, ?_, ?_⟩
  · intro o t ho
    exact (h.clear o t ho).mono fun g hg _ => hold o g hg
  · intro y g hg t hc
    rcases hnew y g hg with hg | heq
    · exact h.clear_only y g hg t hc
    · cases heq.symm.trans hc
  · intro o t ho
    refine ⟨fun y data hdata => ?_, fun y g hg y' hc => ?_⟩
    · exact ((h.tracks o t ho).watched y data hdata).mono fun g hg _ => hold y g hg
    · rcases hnew y g hg with hg | heq
      · exact (h.tracks o t ho).only y g hg y' hc
      · cases heq.symm.trans hc
  · intro y g hg t y' hc
    rcases hnew y g hg with hg | heq
    · exact h.untrack_only y g hg t y' hc
    · cases heq.symm.trans hc

def connects (env : Objects ο) (thisObj : ο) (p : Pair) : Bool :=
  (getParams p).toBool && env.hasSignal thisObj p.signalName

def connected (env : Objects ο) (thisObj : ο) (p : Pair) : String × ℕ × Bool :=
  (p.signalName, p.handler, p.flags.any (· % 2 = 1) && env.isGObject thisObj)

def shape (h : Handler (Callback ο)) : String × ℕ × Bool :=
  (h.signalName, match h.callback with | .handler fn _ => fn | _ => 0, h.after)

/-- **The loop over the pairs** connects those before one that cannot be connected, and only
returns if there is none. Induction on the pairs. -/
theorem Wired.connectSignals (h : s.Wired env) (thisObj obj : ο) (ps : List Pair) (ids : List ℕ) :
    ∃ s' r new, connectSignals env thisObj obj ps s ids = (s', r) ∧ s'.Wired env ∧
      s'.signalTrackers = s.signalTrackers ∧ s'.trackers = s.trackers ∧
      (∀ o obj', s'.handlersFor o obj' =
        s.handlersFor o obj' ++ if o = thisObj ∧ obj = obj' then new else []) ∧
      new.map shape = (ps.takeWhile (connects env thisObj)).map (connected env thisObj) ∧
      (r.toBool = true ↔ ps.takeWhile (connects env thisObj) = ps) ∧
      (∀ ids', r = .ok ids' → ids' = ids ++ new.map Handler.id) := by
  induction ps generalizing s ids with
  | nil =>
    refine ⟨s, .ok ids, [], rfl, h, rfl, rfl, fun o obj' => ?_, rfl, iff_of_true rfl rfl, ?_⟩
    · rw [ite_self, List.append_nil]
    · intro ids' heq
      cases heq
      exact (List.append_nil ids).symm
  | cons p ps ih =>
    -- a pair that throws ends the loop
    have hstop : ∀ e, connects env thisObj p = false →
        State.connectSignals env thisObj obj (p :: ps) s ids = (s, .error e) →
        ∃ s' r new, State.connectSignals env thisObj obj (p :: ps) s ids = (s', r) ∧ s'.Wired env ∧
          s'.signalTrackers = s.signalTrackers ∧ s'.trackers = s.trackers ∧
          (∀ o obj', s'.handlersFor o obj' =
            s.handlersFor o obj' ++ if o = thisObj ∧ obj = obj' then new else []) ∧
          new.map shape = ((p :: ps).takeWhile (connects env thisObj)).map (connected env thisObj) ∧
          (r.toBool = true ↔ (p :: ps).takeWhile (connects env thisObj) = p :: ps) ∧
          (∀ ids', r = .ok ids' → ids' = ids ++ new.map Handler.id) := by
      intro e hp heq
      have hnil : (p :: ps).takeWhile (connects env thisObj) = [] := by
        rw [List.takeWhile_cons, hp]
        rfl
      refine ⟨s, .error e, [], heq, h, rfl, rfl, fun o obj' => ?_, ?_, ?_, ?_⟩
      · rw [ite_self, List.append_nil]
      · rw [hnil]
        rfl
      · rw [hnil]
        exact iff_of_false Bool.false_ne_true (List.cons_ne_nil p ps).symm
      · intro ids' heq
        cases heq
    cases hparams : getParams p with
    | error e =>
      apply hstop e
      · rw [connects, hparams]
        rfl
      · rw [State.connectSignals, hparams]
    | ok flags =>
      by_cases hsignal : env.hasSignal thisObj p.signalName = true
      swap
      · apply hstop (.noSignal p.signalName)
        · rw [connects, hparams, Bool.eq_false_iff.mpr hsignal]
          rfl
        · rw [State.connectSignals, hparams]
          exact if_neg hsignal
      have hp : connects env thisObj p = true := by
        rw [connects, hparams, hsignal]
        rfl
      have hflags : (p.flags.any (· % 2 = 1)) = decide (flags % 2 = 1) := by
        rw [getParams] at hparams
        split at hparams
        · rename_i hnone
          cases hparams
          rw [hnone]
          rfl
        · rename_i flags' hsome
          split at hparams
          · cases hparams
          · split at hparams
            · cases hparams
            · cases hparams
              rw [hsome]
              rfl
      obtain ⟨s', r, new, heq, hwired, hmanager, htrackers, hhandlers, hnew, hok, hids⟩ :=
        ih (h.connectHandler thisObj p.signalName (flags % 2 = 1 ∧ env.isGObject thisObj) p.handler
          obj) (ids ++ [s.emitters.nextId])
      refine ⟨s', r, ⟨s.emitters.nextId, p.signalName, flags % 2 = 1 ∧ env.isGObject thisObj,
        .handler p.handler obj⟩ :: new, ?_, hwired, hmanager, htrackers, fun o obj' => ?_, ?_, ?_,
        ?_⟩
      · rw [State.connectSignals, hparams]
        dsimp only
        rw [if_pos hsignal]
        exact heq
      · rw [hhandlers, handlersFor_connect, List.append_assoc]
        congr 1
        by_cases hpair : o = thisObj ∧ obj = obj'
        · have hfor : (Callback.handler p.handler obj).isFor obj' = true := decide_eq_true hpair.2
          rw [if_pos hpair, if_pos hpair, if_pos ⟨hpair.1, hfor⟩]
          rfl
        · rw [if_neg hpair, if_neg hpair, if_neg fun hc => hpair ⟨hc.1, of_decide_eq_true hc.2⟩]
          rfl
      · rw [List.takeWhile_cons, if_pos hp, List.map_cons, List.map_cons, hnew, connected, hflags,
          shape, Bool.decide_and, Bool.decide_eq_true]
      · rw [hok, List.takeWhile_cons, if_pos hp, List.cons.injEq]
        exact (and_iff_right rfl).symm
      · intro ids' hr
        rw [hids ids' hr, List.map_cons, List.append_assoc]
        rfl

/-! ## The tracker of an owner -/

theorem Wired.addTracker (h : s.Wired env) (hnone : s.signalTrackers o = none)
    {e : Emitters ο (Callback ο)} {id : Option ℕ} (hsound : e.Sound)
    (hold : ∀ y, ∀ g ∈ s.emitters.handlers y, g ∈ e.handlers y)
    (hnew : ∀ y, ∀ g ∈ e.handlers y, g ∈ s.emitters.handlers y ∨
      y = o ∧ g.callback = .clear s.nextTracker ∧ id = some g.id)
    (hwatched : ({ s with emitters := e } : State ο).Watched env id o (.clear s.nextTracker)) :
    Wired env
      { emitters := e
        signalTrackers := Function.update s.signalTrackers o (some s.nextTracker)
        trackers := Function.update s.trackers s.nextTracker ⟨some o, id, .empty⟩
        nextTracker := s.nextTracker + 1 } := by
  -- the trackers of other owners are the same
  have hother : ∀ o' t, Function.update s.signalTrackers o (some s.nextTracker) o' = some t →
      o' = o ∧ t = s.nextTracker ∨ o' ≠ o ∧ t ≠ s.nextTracker ∧ s.signalTrackers o' = some t := by
    intro o' t ho'
    by_cases heq : o' = o
    · rw [heq, Function.update_self] at ho'
      exact .inl ⟨heq, (Option.some.inj ho').symm⟩
    · rw [Function.update_of_ne heq] at ho'
      exact .inr ⟨heq, Nat.ne_of_lt (h.owner o' t ho').1, ho'⟩
  have hkept : ∀ o' t, s.signalTrackers o' = some t →
      Function.update s.signalTrackers o (some s.nextTracker) o' = some t := by
    intro o' t ho'
    rw [Function.update_of_ne, ho']
    rintro rfl
    cases hnone.symm.trans ho'
  refine ⟨hsound, ?_, ?_, ?_, ?_, ?_⟩
  · intro o' t ho'
    show t < s.nextTracker + 1 ∧ (Function.update s.trackers s.nextTracker _ t).owner = some o'
    rcases hother o' t ho' with ⟨rfl, rfl⟩ | ⟨-, hne, ho'⟩
    · rw [Function.update_self]
      exact ⟨Nat.lt_succ_self _, rfl⟩
    · rw [Function.update_of_ne hne]
      exact ⟨Nat.lt_succ_of_lt (h.owner o' t ho').1, (h.owner o' t ho').2⟩
  · intro o' t ho'
    show Watched env _ (Function.update s.trackers s.nextTracker _ t).ownerDestroyId o' _
    rcases hother o' t ho' with ⟨rfl, rfl⟩ | ⟨-, hne, ho'⟩
    · rw [Function.update_self]
      exact hwatched
    · rw [Function.update_of_ne hne]
      exact (h.clear o' t ho').mono fun g hg _ => hold o' g hg
  · intro y g hg t hc
    show _ ∧ (Function.update s.trackers s.nextTracker _ t).ownerDestroyId = some g.id
    rcases hnew y g hg with hg | ⟨rfl, hclear, hid⟩
    · obtain ⟨hy, hid⟩ := h.clear_only y g hg t hc
      rw [Function.update_of_ne (Nat.ne_of_lt (h.owner y t hy).1)]
      exact ⟨hkept y t hy, hid⟩
    · cases hc.symm.trans hclear
      rw [Function.update_self]
      exact ⟨Function.update_self .., hid⟩
  · intro o' t ho'
    show Tracks env _ t (Function.update s.trackers s.nextTracker _ t).map
    rcases hother o' t ho' with ⟨rfl, rfl⟩ | ⟨-, hne, ho'⟩
    · rw [Function.update_self]
      refine ⟨fun y data hdata => ?_, fun y g hg y' hc => ?_⟩
      · cases hdata
      · -- a new number, under which nothing is connected
        rcases hnew y g hg with hg | ⟨-, hclear, -⟩
        · obtain ⟨o', ho'⟩ := h.untrack_only y g hg _ y' hc
          exact absurd (h.owner o' _ ho').1 (Nat.lt_irrefl _)
        · cases hc.symm.trans hclear
    · rw [Function.update_of_ne hne]
      refine ⟨fun y data hdata => ?_, fun y g hg y' hc => ?_⟩
      · exact ((h.tracks o' t ho').watched y data hdata).mono fun g hg _ => hold y g hg
      · rcases hnew y g hg with hg | ⟨-, hclear, -⟩
        · exact (h.tracks o' t ho').only y g hg y' hc
        · cases hc.symm.trans hclear
  · intro y g hg t y' hc
    rcases hnew y g hg with hg | ⟨-, hclear, -⟩
    · obtain ⟨o', ho'⟩ := h.untrack_only y g hg t y' hc
      exact ⟨o', hkept o' t ho'⟩
    · cases hc.symm.trans hclear

theorem data?_addTracker (h : s.Wired env) (hnone : s.signalTrackers o = none)
    (e : Emitters ο (Callback ο)) (id : Option ℕ) (o' obj : ο) : data?
      { emitters := e
        signalTrackers := Function.update s.signalTrackers o (some s.nextTracker)
        trackers := Function.update s.trackers s.nextTracker ⟨some o, id, .empty⟩
        nextTracker := s.nextTracker + 1 } o' obj = s.data? o' obj := by
  rw [data?, data?]
  dsimp only
  by_cases heq : o' = o
  · subst heq
    rw [hnone, Function.update_self, Option.bind_some, Function.update_self]
    rfl
  · rw [Function.update_of_ne heq]
    cases ho' : s.signalTrackers o' with
    | none => rfl
    | some t =>
      rw [Option.bind_some, Option.bind_some, Function.update_of_ne]
      exact Nat.ne_of_lt (h.owner o' t ho').1

theorem Wired.getSignalTracker (h : s.Wired env) (o : ο) :
    ∃ s' t, s.getSignalTracker env o = (s', t) ∧ s'.Wired env ∧ s'.signalTrackers o = some t ∧
      (∀ o', o' ≠ o → s'.signalTrackers o' = s.signalTrackers o') ∧
      (∀ o' obj, s'.data? o' obj = s.data? o' obj) ∧
      ∀ o' obj, s'.handlersFor o' obj = s.handlersFor o' obj := by
  cases ho : s.signalTrackers o with
  | some t =>
    exact ⟨s, t, by rw [State.getSignalTracker, ho], h, ho, fun _ _ => rfl, fun _ _ => rfl,
      fun _ _ => rfl⟩
  | none =>
    refine ⟨_, s.nextTracker, by rw [State.getSignalTracker, ho], ?_⟩
    by_cases hdestroy : env.hasDestroySignal o = true
    · rw [if_pos hdestroy]
      refine ⟨h.addTracker ho (h.sound.connect ..) ?_ ?_ ?_, Function.update_self .., ?_,
        data?_addTracker h ho _ _, ?_⟩
      · exact fun y g hg => Emitters.mem_handlers_connect.mpr (.inl hg)
      · intro y g hg
        rcases Emitters.mem_handlers_connect.mp hg with hg | ⟨rfl, rfl⟩
        · exact .inl hg
        · exact .inr ⟨rfl, rfl, rfl⟩
      · rw [Watched, if_pos hdestroy]
        exact ⟨_, Emitters.mem_handlers_connect.mpr (.inr ⟨rfl, rfl⟩), rfl, rfl, rfl⟩
      · exact fun o' hne => Function.update_of_ne hne ..
      · intro o' obj
        show (s.connect o "destroy" true (.clear s.nextTracker)).handlersFor o' obj = _
        rw [handlersFor_connect, if_neg fun hfor => Bool.false_ne_true hfor.2, List.append_nil]
    · rw [if_neg hdestroy]
      refine ⟨h.addTracker ho h.sound (fun _ _ => id) (fun _ _ => .inl) ?_, Function.update_self ..,
        ?_, data?_addTracker h ho _ _, fun _ _ => rfl⟩
      · rw [Watched, if_neg hdestroy]
      · exact fun o' hne => Function.update_of_ne hne ..

/-! ## The objects of a tracker -/

theorem Wired.setMap (h : s.Wired env) (ho : s.signalTrackers o = some t)
    {e : Emitters ο (Callback ο)} {map : Dict ο SignalData} (hsound : e.Sound)
    (hold : ∀ y, ∀ g ∈ s.emitters.handlers y, g ∈ e.handlers y)
    (hnew : ∀ y, ∀ g ∈ e.handlers y, g ∈ s.emitters.handlers y ∨ g.callback = .untrack t y)
    (htracks : ({ s with emitters := e } : State ο).Tracks env t map) :
    Wired env (({ s with emitters := e } : State ο).setMap t map) := by
  refine ⟨hsound, ?_, ?_, ?_, ?_, ?_⟩
  · intro o' t' ho'
    refine ⟨(h.owner o' t' ho').1, ?_⟩
    show (Function.update s.trackers t _ t').owner = some o'
    rw [Function.update_apply]
    split
    · rename_i heq
      rw [← (h.owner o' t' ho').2, heq]
    · exact (h.owner o' t' ho').2
  · intro o' t' ho'
    show Watched env _ (Function.update s.trackers t _ t').ownerDestroyId o' _
    have hclear : ({ s with emitters := e } : State ο).Watched env (s.trackers t').ownerDestroyId
        o' (.clear t') := (h.clear o' t' ho').mono fun g hg _ => hold o' g hg
    rw [Function.update_apply]
    split
    · rename_i heq
      rw [heq] at hclear ⊢
      exact hclear
    · exact hclear
  · intro y g hg t' hc
    rcases hnew y g hg with hg | huntrack
    · obtain ⟨hy, hid⟩ := h.clear_only y g hg t' hc
      refine ⟨hy, ?_⟩
      show (Function.update s.trackers t _ t').ownerDestroyId = some g.id
      rw [Function.update_apply]
      split
      · rename_i heq
        rw [← hid, heq]
      · exact hid
    · cases hc.symm.trans huntrack
  · intro o' t' ho'
    show Tracks env _ t' (Function.update s.trackers t _ t').map
    by_cases heq : t' = t
    · rw [heq, Function.update_self]
      exact ⟨htracks.watched, htracks.only⟩
    · rw [Function.update_of_ne heq]
      refine ⟨fun y data hdata => ?_, fun y g hg y' hc => ?_⟩
      · exact ((h.tracks o' t' ho').watched y data hdata).mono fun g hg _ => hold y g hg
      · rcases hnew y g hg with hg | huntrack
        · exact (h.tracks o' t' ho').only y g hg y' hc
        · cases hc.symm.trans huntrack
          exact absurd rfl heq
  · intro y g hg t' y' hc
    rcases hnew y g hg with hg | huntrack
    · exact h.untrack_only y g hg t' y' hc
    · cases hc.symm.trans huntrack
      exact ⟨o, ho⟩

theorem data?_setMap (h : s.Wired env) (ho : s.signalTrackers o = some t)
    (e : Emitters ο (Callback ο)) (map : Dict ο SignalData) (o' obj : ο) :
    (({ s with emitters := e } : State ο).setMap t map).data? o' obj =
      if o' = o then map.get? obj else s.data? o' obj := by
  show (s.signalTrackers o').bind (fun t' => (Function.update s.trackers t _ t').map.get? obj) = _
  by_cases heq : o' = o
  · rw [if_pos heq, heq, ho, Option.bind_some, Function.update_self]
  · rw [if_neg heq, data?]
    cases ho' : s.signalTrackers o' with
    | none => rfl
    | some t' =>
      rw [Option.bind_some, Option.bind_some, Function.update_of_ne]
      rintro rfl
      exact heq (h.owner_inj ho ho')

/-- From `s` to `s'` the tracker of `o` records `ids` for `obj`, and nothing else happens to what
is recorded or to the handlers that were passed in. -/
structure Adds (s s' : State ο) (o obj : ο) (ids : List ℕ) : Prop where
  signalTrackers : s'.signalTrackers = s.signalTrackers
  handlersFor : ∀ o' obj', s'.handlersFor o' obj' = s.handlersFor o' obj'
  data : ∃ data, s'.data? o obj = some data ∧ data.ownerSignals = s.ownerSignals o obj ++ ids
  others : ∀ o' obj', ¬ (o' = o ∧ obj' = obj) → s'.data? o' obj' = s.data? o' obj'

theorem Adds.trans {s' s'' : State ο} {ids ids' : List ℕ} (h : s.Adds s' o obj ids)
    (h' : s'.Adds s'' o obj ids') : s.Adds s'' o obj (ids ++ ids') where
  signalTrackers := h'.signalTrackers.trans h.signalTrackers
  handlersFor o' obj' := (h'.handlersFor o' obj').trans (h.handlersFor o' obj')
  data := by
    obtain ⟨data, hdata, hids⟩ := h.data
    obtain ⟨data', hdata', hids'⟩ := h'.data
    refine ⟨data', hdata', ?_⟩
    rw [hids', ownerSignals, hdata, Option.elim_some, hids, List.append_assoc]
  others o' obj' hne := (h'.others o' obj' hne).trans (h.others o' obj' hne)

omit [DecidableEq ο] in
@[simp] theorem setMap_setMap (s : State ο) (t : ℕ) (m m' : Dict ο SignalData) :
    (s.setMap t m).setMap t m' = s.setMap t m' := by
  simp [State.setMap, setTracker]

omit [DecidableEq ο] in
@[simp] theorem map_setMap (s : State ο) (t : ℕ) (m : Dict ο SignalData) :
    ((s.setMap t m).trackers t).map = m := by
  simp [State.setMap, setTracker]

omit [DecidableEq ο] in
@[simp] theorem setMap_self (s : State ο) (t : ℕ) : s.setMap t (s.trackers t).map = s := by
  simp [State.setMap, setTracker]

theorem getSignalData_some {data : SignalData} (hdata : (s.trackers t).map.get? obj = some data) :
    s.getSignalData t obj = (s, data) := by
  rw [getSignalData, hdata]

theorem getSignalData_none (hdata : (s.trackers t).map.get? obj = none) : s.getSignalData t obj =
      (s.setMap t ((s.trackers t).map.set obj ⟨[], none⟩), ⟨[], none⟩) := by
  rw [getSignalData, hdata]

section

variable (h : s.Wired env)
include h

theorem Wired.adds (ho : s.signalTrackers o = some t)
    {e : Emitters ο (Callback ο)} {map : Dict ο SignalData} {data : SignalData} {ids : List ℕ}
    (hdata : map.get? obj = some data) (hids : data.ownerSignals = s.ownerSignals o obj ++ ids)
    (hother : ∀ obj', obj' ≠ obj → map.get? obj' = (s.trackers t).map.get? obj')
    (hfor : ∀ o' obj', ({ s with emitters := e } : State ο).handlersFor o' obj' =
      s.handlersFor o' obj') :
    s.Adds (({ s with emitters := e } : State ο).setMap t map) o obj ids where
  signalTrackers := rfl
  handlersFor := hfor
  data := ⟨data, by rw [data?_setMap h ho, if_pos rfl, hdata], hids⟩
  others o' obj' hne := by
    rw [data?_setMap h ho]
    split
    · rename_i heq
      rw [hother obj' fun hobj => hne ⟨heq, hobj⟩, heq, data?_eq ho]
    · rfl

/-- **An object is watched.** -/
theorem Wired.trackDestroy (ho : s.signalTrackers o = some t)
    (hdestroy : env.hasDestroySignal obj = true) :
    (s.trackDestroy t obj).Wired env ∧ s.Adds (s.trackDestroy t obj) o obj [] := by
  rw [State.trackDestroy]
  cases hdata : (s.trackers t).map.get? obj with
  | some data =>
    -- it is watched already
    have hwatched := (h.tracks o t ho).watched obj data hdata
    rw [Watched, if_pos hdestroy] at hwatched
    obtain ⟨g, -, hid, -⟩ := hwatched
    have hsome : data.destroyId.isSome = true := by
      rw [hid]
      rfl
    rw [getSignalData_some hdata]
    dsimp only
    rw [if_pos hsome]
    refine ⟨h, rfl, fun _ _ => rfl, ⟨data, by rw [data?_eq ho, hdata], ?_⟩, fun _ _ _ => rfl⟩
    rw [ownerSignals, data?_eq ho, hdata, Option.elim_some, List.append_nil]
  | none =>
    rw [getSignalData_none hdata]
    dsimp only
    rw [if_neg (by exact Bool.false_ne_true)]
    generalize hm : (s.trackers t).map.set obj ⟨[], none⟩ = m
    have hset : ((s.setMap t m).connect obj "destroy" true (.untrack t obj)).setMap t
          ((((s.setMap t m).connect obj "destroy" true (.untrack t obj)).trackers t).map.set obj
            ⟨[], some (s.setMap t m).emitters.nextId⟩) =
        State.setMap
          { s with emitters := s.emitters.connect obj "destroy" true (.untrack t obj) } t
          (m.set obj ⟨[], some s.emitters.nextId⟩) := by
      rw [show (((s.setMap t m).connect obj "destroy" true (.untrack t obj)).trackers t).map = m from
        map_setMap s t m]
      exact setMap_setMap { s with emitters := _ } t m _
    rw [hset]
    have hother : ∀ obj', obj' ≠ obj → (m.set obj ⟨[], some s.emitters.nextId⟩).get? obj' =
        (s.trackers t).map.get? obj' := by
      intro obj' hne
      rw [Dict.get?_set_of_ne _ _ hne, ← hm, Dict.get?_set_of_ne _ _ hne]
    have htracks : Tracks env
        { s with emitters := s.emitters.connect obj "destroy" true (.untrack t obj) } t
        (m.set obj ⟨[], some s.emitters.nextId⟩) := by
      refine ⟨fun y data' hdata' => ?_, fun y g hg y' hc => ?_⟩
      · by_cases heq : y = obj
        · subst heq
          rw [Dict.get?_set_self] at hdata'
          cases hdata'
          rw [Watched, if_pos hdestroy]
          exact ⟨_, Emitters.mem_handlers_connect.mpr (.inr ⟨rfl, rfl⟩), rfl, rfl, rfl⟩
        · rw [hother y heq] at hdata'
          exact ((h.tracks o t ho).watched y data' hdata').mono fun g hg _ =>
            Emitters.mem_handlers_connect.mpr (.inl hg)
      · rcases Emitters.mem_handlers_connect.mp hg with hg | ⟨rfl, rfl⟩
        · obtain ⟨hy, data', hdata', hid'⟩ := (h.tracks o t ho).only y g hg y' hc
          refine ⟨hy, data', ?_, hid'⟩
          rw [hother y, hdata']
          rintro rfl
          cases hdata.symm.trans hdata'
        · cases hc
          exact ⟨rfl, _, Dict.get?_set_self .., rfl⟩
    refine ⟨h.setMap ho (h.sound.connect ..) ?_ ?_ htracks, ?_⟩
    · exact fun y g hg => Emitters.mem_handlers_connect.mpr (.inl hg)
    · intro y g hg
      rcases Emitters.mem_handlers_connect.mp hg with hg | ⟨rfl, rfl⟩
      · exact .inl hg
      · exact .inr rfl
    · apply h.adds ho (Dict.get?_set_self ..) _ hother
      · intro o' obj'
        show (s.connect obj "destroy" true (.untrack t obj)).handlersFor o' obj' = _
        rw [handlersFor_connect, if_neg fun hfor => Bool.false_ne_true hfor.2, List.append_nil]
      · rw [ownerSignals, data?_eq ho, hdata]
        rfl

theorem Wired.addIds (ho : s.signalTrackers o = some t)
    (hdestroy : env.hasDestroySignal obj = true → (s.data? o obj).isSome) (ids : List ℕ) :
    ∃ s', (let (s, signalData) := s.getSignalData t obj
        s.setMap t ((s.trackers t).map.set obj
          { signalData with ownerSignals := signalData.ownerSignals ++ ids })) = s' ∧
      s'.Wired env ∧ s.Adds s' o obj ids := by
  rw [data?_eq ho] at hdestroy
  -- the data before, and the same handler for `destroy`
  obtain ⟨m, data, hget, hself, hother, hids⟩ : ∃ m data, s.getSignalData t obj =
      (s.setMap t m, data) ∧ ((s.trackers t).map.get? obj = some data ∨
        (s.trackers t).map.get? obj = none ∧ data.destroyId = none) ∧
      (∀ obj', obj' ≠ obj → m.get? obj' = (s.trackers t).map.get? obj') ∧
      data.ownerSignals = s.ownerSignals o obj := by
    rw [ownerSignals, data?_eq ho]
    cases hdata : (s.trackers t).map.get? obj with
    | some data =>
      refine ⟨(s.trackers t).map, data, ?_, .inl rfl, fun _ _ => rfl, rfl⟩
      rw [setMap_self, getSignalData_some hdata]
    | none =>
      refine ⟨_, _, getSignalData_none hdata, .inr ⟨rfl, rfl⟩, ?_, rfl⟩
      exact fun obj' hne => Dict.get?_set_of_ne _ _ hne
  rw [hget]
  dsimp only
  rw [map_setMap, setMap_setMap]
  have hother' : ∀ obj', obj' ≠ obj →
      (m.set obj { data with ownerSignals := data.ownerSignals ++ ids }).get? obj' =
        (s.trackers t).map.get? obj' := by
    intro obj' hne
    rw [Dict.get?_set_of_ne _ _ hne, hother obj' hne]
  have htracks : s.Tracks env t
      (m.set obj { data with ownerSignals := data.ownerSignals ++ ids }) := by
    refine ⟨fun y data' hdata' => ?_, fun y g hg y' hc => ?_⟩
    · by_cases heq : y = obj
      · subst heq
        rw [Dict.get?_set_self] at hdata'
        cases hdata'
        rcases hself with hself | ⟨hnone, hid⟩
        · exact (h.tracks o t ho).watched y data hself
        · rw [Watched, if_neg fun hd => by rw [hnone] at hdestroy; cases hdestroy hd]
          exact hid
      · rw [hother' y heq] at hdata'
        exact (h.tracks o t ho).watched y data' hdata'
    · obtain ⟨hy, data', hdata', hid'⟩ := (h.tracks o t ho).only y g hg y' hc
      by_cases heq : y = obj
      · subst heq
        rcases hself with hself | ⟨hnone, -⟩
        · cases hself.symm.trans hdata'
          exact ⟨hy, _, Dict.get?_set_self .., hid'⟩
        · cases hnone.symm.trans hdata'
      · exact ⟨hy, data', by rw [hother' y heq, hdata'], hid'⟩
  refine ⟨_, rfl, h.setMap ho h.sound (fun _ _ => id) (fun _ _ => .inl) htracks, ?_⟩
  exact h.adds ho (Dict.get?_set_self ..) (by rw [hids]) hother' fun _ _ => rfl

/-- **An object is tracked.** -/
theorem Wired.track (ho : s.signalTrackers o = some t) (obj : ο) (ids : List ℕ) :
    (s.track env t obj ids).Wired env ∧ s.Adds (s.track env t obj ids) o obj ids := by
  rw [State.track]
  by_cases hdestroy : env.hasDestroySignal obj = true
  · rw [if_pos hdestroy]
    obtain ⟨hwired, hadds⟩ := h.trackDestroy ho hdestroy
    obtain ⟨data, hdata, -⟩ := hadds.data
    obtain ⟨_, rfl, hwired', hadds'⟩ := hwired.addIds (hadds.signalTrackers ▸ ho)
      (fun _ => by rw [hdata]; rfl) ids
    exact ⟨hwired', hadds.trans hadds'⟩
  · rw [if_neg hdestroy]
    obtain ⟨_, rfl, hwired', hadds'⟩ := h.addIds ho (fun hd => absurd hd hdestroy) ids
    exact ⟨hwired', hadds'⟩

end

/-! ## The whole call -/

def Clean (env : Objects ο) (thisObj : ο) (pairs : List Pair) : Prop :=
  pairs.takeWhile (connects env thisObj) = pairs ↔ pairs.takeWhile (connects env thisObj) ≠ []
deriving Decidable

theorem Inv.of_adds (h : s.Inv env) (o obj : ο) {s' : State ο} {new : List (Handler (Callback ο))}
    (hwired : s'.Wired env) (hmanager : ∀ o', o' ≠ o → s'.signalTrackers o' = s.signalTrackers o')
    (hfor : ∀ o' obj', s'.handlersFor o' obj' =
      s.handlersFor o' obj' ++ if o' = o ∧ obj = obj' then new else [])
    (hdata : ∃ data, s'.data? o obj = some data ∧
      data.ownerSignals = s.ownerSignals o obj ++ new.map Handler.id)
    (hothers : ∀ o' obj', ¬ (o' = o ∧ obj' = obj) → s'.data? o' obj' = s.data? o' obj')
    (hne : new ≠ []) : s'.Inv env where
  toWired := hwired
  recorded o' obj' := by
    rw [hfor]
    by_cases hpair : o' = o ∧ obj = obj'
    · obtain ⟨data, hdata, hids⟩ := hdata
      obtain ⟨rfl, rfl⟩ := hpair
      have hsignals : s'.ownerSignals o' obj = data.ownerSignals := by
        rw [State.ownerSignals, hdata, Option.elim_some]
      rw [if_pos ⟨rfl, rfl⟩, List.map_append, h.recorded, hsignals, hids]
    · rw [if_neg hpair, List.append_nil, h.recorded, State.ownerSignals, State.ownerSignals,
        hothers o' obj' fun hc => hpair ⟨hc.1, hc.2.symm⟩]
  live o' obj' hrec := by
    rw [hfor]
    by_cases hpair : o' = o ∧ obj = obj'
    · rw [if_pos hpair]
      exact List.append_ne_nil_of_right_ne_nil _ hne
    · rw [if_neg hpair, List.append_nil]
      apply h.live
      rw [Records, ← hothers o' obj' fun hc => hpair ⟨hc.1, hc.2.symm⟩]
      exact hrec
  nonempty o' t' ho' := by
    by_cases heq : o' = o
    · obtain ⟨data, hdata, -⟩ := hdata
      exact ⟨obj, by rw [heq, Records, hdata]; rfl⟩
    · obtain ⟨obj', hrec⟩ := h.nonempty o' t' (hmanager o' heq ▸ ho')
      exact ⟨obj', by rw [Records, hothers o' obj' fun hc => heq hc.1]; exact hrec⟩

/-- **Handlers are connected and tracked.** -/
theorem Inv.connectObject (h : s.Inv env) (thisObj : ο) (pairs : List Pair) (obj : Option ο)
    (hclean : Clean env thisObj pairs) : (s.connectObject env thisObj pairs obj).1.Inv env ∧
      ∀ o obj', ((s.connectObject env thisObj pairs obj).1.handlersFor o obj').map shape =
        (s.handlersFor o obj').map shape ++
          if o = thisObj ∧ obj.getD env.globalThis = obj' then
            (pairs.takeWhile (connects env thisObj)).map (connected env thisObj)
          else [] := by
  rw [State.connectObject]
  dsimp only
  generalize obj.getD env.globalThis = obj
  obtain ⟨s₁, r, new, heq, hwired, hmanager, htrackers, hfor, hnew, hok, hids⟩ :=
    h.toWired.connectSignals thisObj obj pairs []
  have hdata : ∀ o obj', s₁.data? o obj' = s.data? o obj' := by
    intro o obj'
    rw [data?, data?, hmanager, htrackers]
  have hshape : ∀ o obj', (s₁.handlersFor o obj').map shape = (s.handlersFor o obj').map shape ++
      if o = thisObj ∧ obj = obj' then
        (pairs.takeWhile (connects env thisObj)).map (connected env thisObj)
      else [] := by
    intro o obj'
    rw [hfor, List.map_append, ← hnew]
    split <;> rfl
  rw [heq]
  cases r with
  | error e =>
    -- it was the first pair that threw
    have hnone : pairs.takeWhile (connects env thisObj) = [] := by
      by_contra hne
      exact Bool.false_ne_true (hok.mpr (hclean.mpr hne))
    have hnil : new = [] := by
      rw [hnone] at hnew
      exact List.map_eq_nil_iff.mp hnew
    have hsame : ∀ o obj', s₁.handlersFor o obj' = s.handlersFor o obj' := by
      intro o obj'
      rw [hfor, hnil, ite_self, List.append_nil]
    refine ⟨⟨hwired, fun o obj' => ?_, fun o obj' hrec => ?_, fun o t ho => ?_⟩, hshape⟩
    · show (s₁.handlersFor o obj').map Handler.id = s₁.ownerSignals o obj'
      rw [hsame, h.recorded, State.ownerSignals, State.ownerSignals, hdata]
    · show s₁.handlersFor o obj' ≠ []
      rw [hsame]
      apply h.live
      rw [Records, ← hdata]
      exact hrec
    · obtain ⟨obj', hrec⟩ := h.nonempty o t (by rw [← hmanager]; exact ho)
      exact ⟨obj', by rw [Records, hdata]; exact hrec⟩
  | ok signalIds =>
    have hall := hok.mp rfl
    have hne : new ≠ [] := by
      rintro rfl
      exact hclean.mp hall (List.map_eq_nil_iff.mp hnew.symm)
    have hsignalIds := hids signalIds rfl
    rw [List.nil_append] at hsignalIds
    obtain ⟨s₂, t, heq₂, hwired₂, ho₂, hmanager₂, hdata₂, hfor₂⟩ :=
      hwired.getSignalTracker thisObj
    obtain ⟨hwired₃, hadds⟩ := hwired₂.track ho₂ obj signalIds
    dsimp only
    rw [heq₂]
    dsimp only
    refine ⟨h.of_adds thisObj obj hwired₃ ?_ ?_ ?_ ?_ hne, fun o obj' => ?_⟩
    · intro o' hne'
      rw [hadds.signalTrackers, hmanager₂ o' hne', hmanager]
    · intro o' obj'
      rw [hadds.handlersFor, hfor₂, hfor]
    · obtain ⟨data, hdata₃, hids₃⟩ := hadds.data
      refine ⟨data, hdata₃, ?_⟩
      rw [hids₃, hsignalIds, State.ownerSignals, hdata₂, hdata, State.ownerSignals]
    · intro o' obj' hpair
      rw [hadds.others o' obj' hpair, hdata₂, hdata]
    · rw [hadds.handlersFor, hfor₂, hshape]

end State

end SignalTracker
