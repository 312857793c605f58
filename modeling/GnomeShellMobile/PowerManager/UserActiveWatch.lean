import GnomeShellMobile.Runs.Basic
import GnomeShellMobile.PowerManager.Step

/-!
# PowerManager — the user-active watch belongs to an action

`_onUserActive` throws when the watch fires without an action. The watch is installed at ten
places and removed with the action in `_maybeCancelAction`, but four other places delete
`_isInAction` on their own: the error paths of logind's `suspend()` and `hibernate()`, that of the
retried suspend, and an upgrade that `_doSystemAction` then refuses. `WatchSafe` is the side
condition that none of them, and no installation, leaves a watch without an action.
-/

namespace PowerManager

/-- The `await`s after which an entry body installs the watch. -/
def BodyPc.installsWatch : BodyPc → Bool
  | .idleBlankSlept => true
  | .blankSlept => true
  | .sleepFaded _ => true
  | .forcedFaded => true
  | _ => false

namespace State

variable (s : State)

/-- An installed watch has an action, cancelling work or a deferred blank to wake from, and the
throw of `_onUserActive` was not reached. -/
structure WatchGuarded : Prop where
  guarded : s.userActiveId = true →
    s.isInAction.isSome ∨ s.cancellingActionLock.isSome ∨ s.deferredIdleBlankId = true
  noThrow : .error .userActiveWithoutAction ∉ s.log

/-- `_doSystemAction(action)` takes the recorded action away while a watch is installed, and then
refuses to enter its own: the session is inactive or `_suspended` is set. -/
def DropsAction (action : Action) : Prop :=
  canUpgrade s.isInAction action = true ∧ s.userActiveId = true ∧
    (s.sessionIsActive = false ∨ s.suspended = true)
deriving Decidable

def WatchSafeThread (answer : Bool) : Thread → Prop
  | .queued _ action _ _ => s.newActionQueued = true → ¬s.DropsAction action
  | .body b pc =>
      (pc = .sleepCalled → answer = true ∨ s.userActiveId = false) ∧
      (pc.installsWatch = true → b.watchEarly = false → s.isCancelled b.cancellable = false →
        s.isInAction.isSome = true)
  | .suspendAgainCall => answer = true ∨ s.userActiveId = false
  | .cancelPocket _ reason _ =>
      reason = .suspendWakeup → answer = true → s.isInAction.isSome = true
  | _ => True

instance (answer : Bool) (t : Thread) : Decidable (s.WatchSafeThread answer t) := by
  rcases t with _ | _ <;> unfold WatchSafeThread <;> infer_instance

/-- No step leaves a watch without an action: logind's calls fail only while no watch is
installed, an upgrade that is then refused finds no watch, and a watch is installed by an entry
body or after a wake-up in the pocket only while an action is recorded. -/
def WatchSafe : Event → Prop
  | .doSystemAction action _ => s.cancellingActionLock = none → ¬s.DropsAction action
  | .prepareForSleep true _ =>
      s.cancellingActionLock = none →
      ¬(s.suspended = true ∧ (s.isInAction = some .suspend ∨ s.isInAction = some .hibernate)) →
      ¬s.DropsAction .suspendForced
  | .resume i answer => ∀ t ∈ s.threads[i]?, s.WatchSafeThread answer t
  | _ => True

instance (e : Event) : Decidable (s.WatchSafe e) := by
  rcases e with _ | _ | _ | ⟨_ | _, _⟩ <;> unfold WatchSafe <;> infer_instance

/-! ## The invariant -/

/-- `_userAlreadyIdle` is never set, so no idle blank is ever deferred; and no watch has fired
without an action. -/
structure NotDeferring : Prop where
  notIdle : s.userAlreadyIdle = false
  notDeferred : s.deferredIdleBlankId = false
  noThrow : .error .userActiveWithoutAction ∉ s.log

structure Watched : Prop extends NotDeferring s where
  inAction : s.userActiveId = true → s.isInAction.isSome = true

theorem Watched.toWatchGuarded {s : State} (h : s.Watched) : s.WatchGuarded :=
  ⟨fun hw => Or.inl (h.inAction hw), h.noThrow⟩

theorem watched_init : State.init.Watched :=
  ⟨⟨rfl, rfl, by simp [State.init]⟩, by simp [State.init]⟩

theorem watched_iff {s : State} : s.Watched ↔
    (s.userActiveId = true → s.isInAction.isSome = true) ∧ s.userAlreadyIdle = false ∧
      s.deferredIdleBlankId = false ∧ .error .userActiveWithoutAction ∉ s.log :=
  ⟨fun ⟨⟨h2, h3, h4⟩, h1⟩ => ⟨h1, h2, h3, h4⟩, fun ⟨h1, h2, h3, h4⟩ => ⟨⟨h2, h3, h4⟩, h1⟩⟩

variable {s s' : State}

section

variable (h : s.Watched)
include h

theorem Watched.congr (hw : s'.userActiveId = s.userActiveId)
    (ha : s'.isInAction = s.isInAction) (hi : s'.userAlreadyIdle = s.userAlreadyIdle)
    (hd : s'.deferredIdleBlankId = s.deferredIdleBlankId) (hl : s'.log = s.log) : s'.Watched := by
  rw [watched_iff] at h ⊢
  rw [hw, ha, hi, hd, hl]
  exact h

theorem Watched.push (t : Thread) : (s.push t).Watched :=
  h.congr rfl rfl rfl rfl rfl

theorem Watched.turnOnScreen : s.turnOnScreen.Watched :=
  h.congr rfl rfl rfl rfl rfl

theorem Watched.throw {e : Error} (he : e ≠ .userActiveWithoutAction) :
    (s.throw e).Watched := by
  rw [watched_iff] at h ⊢
  grind [State.throw, State.emit]

theorem Watched.settleCancel (reason : CancelReason) (returned : Bool) :
    (s.settleCancel reason returned).Watched := by
  unfold State.settleCancel
  split
  · exact h.push _
  · exact h

theorem Watched.returnAction (forSleep : Bool) :
    (s.returnAction forSleep).Watched := by
  unfold State.returnAction
  split
  · exact h.push _
  · exact h

theorem Watched.installWatch (ha : s.isInAction.isSome = true)
    (entry : Option Nat) : (s.installWatch entry).Watched := by
  rw [watched_iff] at *
  grind [State.installWatch]

theorem Watched.deleteAction (hw : s.userActiveId = false) :
    { s.deleteAction with suspended := false }.Watched := by
  rw [watched_iff] at *
  grind [State.deleteAction]

theorem Watched.syncInhibitor (shouldInhibit sync ok : Bool) :
    (s.syncInhibitor shouldInhibit sync ok).Watched := by
  rw [watched_iff] at *
  grind [State.syncInhibitor, State.push]

theorem Watched.tearDown (ongoing : Action) : (s.tearDown ongoing).Watched := by
  rw [watched_iff] at *
  grind [State.tearDown, State.cancelStart, State.deleteAction, State.throw, State.emit,
    State.turnOnScreen, State.tearDownThrows]

theorem Watched.maybeCancelAction (reason : CancelReason) :
    (s.maybeCancelAction reason).Watched := by
  have htorn := fun ongoing => h.tearDown ongoing
  simp only [watched_iff] at *
  grind [State.maybeCancelAction, State.throw, State.emit, State.settleCancel, State.push,
    State.lockCancelling]

theorem Watched.resumeCancel {reason : CancelReason} {near : Bool}
    (hsafe : reason = .suspendWakeup → near = true → s.isInAction.isSome = true)
    (ongoing : Action) : (s.resumeCancel reason ongoing near).Watched := by
  have htorn := h.tearDown ongoing
  simp only [watched_iff] at *
  grind [State.resumeCancel, State.installWatch, State.settleCancel, State.push]

theorem Watched.enterBody (b : Body) : (s.enterBody b).Watched := by
  rw [watched_iff] at *
  grind [State.enterBody, State.push, State.emit, State.finishBody, State.lockAndTurnOff,
    State.turnOffScreen, State.setSuspended]

end

theorem NotDeferring.startAction (h : s.NotDeferring) (action : Action)
    (watchEarly forSleep : Bool) : (s.startAction action watchEarly forSleep).Watched := by
  unfold State.startAction
  extract_lets s₁ c
  have h₁ : s₁.NotDeferring := by
    obtain ⟨hi, hd, hl⟩ := h
    constructor <;> grind [State.installWatch]
  have h₂ : { s₁ with
      nextId := c + 1
      actionStartCancellable := some c
      isInAction := some action
      entry := some c
      woken := false }.Watched :=
    ⟨⟨h₁.notIdle, h₁.notDeferred, h₁.noThrow⟩, fun _ => rfl⟩
  exact h₂.enterBody _

theorem canUpgrade_nothing (current : Option Action) : canUpgrade current .nothing = false := by
  unfold canUpgrade
  split <;> simp

section

variable (h : s.Watched)
include h

theorem Watched.enterAction (action : Action) (watchEarly forSleep : Bool) :
    (s.enterAction action watchEarly forSleep).Watched := by
  unfold State.enterAction
  split
  · exact h.returnAction _
  · split
    · exact h.returnAction _
    · split
      · exact h.throw (by simp)
      · split
        · exact h.throw (by simp)
        · split
          · exact h.returnAction _
          · exact h.toNotDeferring.startAction _ _ _

theorem Watched.upgrade_enterAction {action : Action}
    (hdrop : ¬s.DropsAction action) (watchEarly forSleep : Bool) :
    ((s.upgrade action).enterAction action watchEarly forSleep).Watched := by
  by_cases hu : canUpgrade s.isInAction action = true
  · have hnothing : action ≠ .nothing := by
      rintro rfl
      rw [canUpgrade_nothing] at hu
      cases hu
    rw [State.upgrade, if_pos hu]
    by_cases hw : s.userActiveId = true
    · have hdel : s.cancelStart.NotDeferring := by
        obtain ⟨⟨hi, hd, hl⟩, -⟩ := h
        refine ⟨hi, hd, ?_⟩
        cases s.entry <;> simpa [State.cancelStart, State.deleteAction] using hl
      have hactive : ¬(s.sessionIsActive = false ∨ s.suspended = true) :=
        fun hrefused => hdrop ⟨hu, hw, hrefused⟩
      have henter : s.cancelStart.enterAction action watchEarly forSleep
          = s.cancelStart.startAction action watchEarly forSleep := by
        simp_all [State.enterAction, State.cancelStart, State.deleteAction]
      rw [henter]
      exact hdel.startAction _ _ _
    · have hdel : s.cancelStart.Watched := by
        rw [watched_iff] at h ⊢
        grind [State.cancelStart, State.deleteAction]
      exact hdel.enterAction _ _ _
  · rw [State.upgrade, if_neg hu]
    exact h.enterAction _ _ _

theorem Watched.doSystemAction {action : Action}
    (hdrop : s.cancellingActionLock = none → ¬s.DropsAction action) (watchEarly forSleep : Bool) :
    (s.doSystemAction action watchEarly forSleep).Watched := by
  unfold State.doSystemAction
  split
  · exact Watched.push (s := { s with newActionQueued := true }) (h.congr rfl rfl rfl rfl rfl) _
  · rename_i hlock
    exact h.upgrade_enterAction (hdrop hlock) _ _

theorem Watched.resumeQueued {action : Action}
    (hdrop : s.newActionQueued = true → ¬s.DropsAction action) (watchEarly forSleep : Bool) :
    (s.resumeQueued action watchEarly forSleep).Watched := by
  unfold State.resumeQueued
  split
  · exact h.returnAction _
  · rename_i hqueued
    have h' : { s with newActionQueued := false }.Watched := h.congr rfl rfl rfl rfl rfl
    exact h'.upgrade_enterAction (hdrop (by simpa using hqueued)) _ _

theorem Watched.afterSleepAction : s.afterSleepAction.Watched := by
  unfold State.afterSleepAction
  split
  · exact h
  · split
    · exact h
    · split
      · exact h.throw (by simp)
      · exact h.syncInhibitor _ _ _

theorem Watched.prepareForSleep {aboutToSuspend ok : Bool}
    (hsafe : s.WatchSafe (.prepareForSleep aboutToSuspend ok)) :
    (s.prepareForSleep aboutToSuspend ok).Watched := by
  unfold State.prepareForSleep
  extract_lets s₁ s₂ s₃ s₄
  have h₁ : s₁.Watched := h.congr rfl rfl rfl rfl rfl
  have h₂ : s₂.Watched := h.congr rfl rfl rfl rfl rfl
  have h₄ : s₄.Watched := (h₂.syncInhibitor true true ok).congr rfl rfl rfl rfl rfl
  split
  · rename_i htrue
    subst htrue
    have hdrop : ¬(s.suspended = true ∧
        (s.isInAction = some .suspend ∨ s.isInAction = some .hibernate)) →
        s₁.cancellingActionLock = none → ¬s₁.DropsAction .suspendForced :=
      fun hcall hlock => hsafe hlock hcall
    split
    · rename_i hcall
      refine Watched.doSystemAction h₁ (fun hlock => hdrop ?_ hlock) _ _
      rcases hcall with hother | hlocked
      · rintro ⟨-, hs | hs⟩
        · exact hother.1 hs
        · exact hother.2 hs
      · rw [hlock] at hlocked
        cases hlocked
    · split
      · rename_i hsuspended
        refine Watched.doSystemAction h₁ (hdrop ?_) _ _
        rintro ⟨hs, -⟩
        simp_all [s₁]
      · exact h₁.afterSleepAction
  · split
    · exact h₄.maybeCancelAction _
    · exact h₄.turnOnScreen

theorem Watched.onUserActive (hw : s.userActiveId = true) (powerKey : Bool) :
    (s.onUserActive powerKey).Watched := by
  unfold State.onUserActive
  extract_lets s₁ s₂
  have ha := h.inAction hw
  have h₁ : s₁.Watched := ⟨⟨h.notIdle, h.notDeferred, h.noThrow⟩, fun hs => by cases hs⟩
  have h₂ : s₂.Watched := ⟨⟨rfl, h.notDeferred, h.noThrow⟩, h₁.inAction⟩
  split
  · rename_i hd
    rw [show s₁.deferredIdleBlankId = false from h.notDeferred] at hd
    cases hd
  · split
    · rename_i hnone
      rw [show s₁.isInAction = s.isInAction from rfl] at hnone
      simp_all
    · split
      · exact h₂.push _
      · exact h₂.maybeCancelAction _

theorem Watched.resumeUserActive (cancelled : Bool) :
    (s.resumeUserActive cancelled).Watched := by
  unfold State.resumeUserActive
  split
  · exact h
  · split
    · exact h
    · rename_i hin
      exact h.installWatch (by cases ha : s.isInAction <;> simp_all) _

theorem Watched.powerButtonPress : s.powerButtonPress.Watched := by
  unfold State.powerButtonPress
  split
  · exact h
  · split
    · exact h.maybeCancelAction _
    · exact h

theorem Watched.sessionIsActiveChanged (active : Bool) :
    (s.sessionIsActiveChanged active).Watched := by
  have h₁ : { s with sessionIsActive := active }.Watched := h.congr rfl rfl rfl rfl rfl
  unfold State.sessionIsActiveChanged
  split
  · exact h
  · dsimp only
    split
    · exact h₁.maybeCancelAction _
    · exact h₁

theorem Watched.resumeSuspendAgain (ongoing : Action) (near : Bool) :
    (s.resumeSuspendAgain ongoing near).Watched := by
  unfold State.resumeSuspendAgain
  split
  · exact h.throw (by simp)
  · split
    · exact ⟨⟨h.notIdle, h.notDeferred, h.noThrow⟩, fun _ => rfl⟩
    · rw [watched_iff] at *
      grind [State.setSuspended, State.emit, State.push]

/-- One resumption of an entry body. Its `finishBody`, lock and screen calls are no concern of
the watch; what is left are the installations and the error path of logind's call. -/
theorem Watched.resumeBody {b : Body} {pc : BodyPc} {answer : Bool}
    (hsafe : s.WatchSafeThread answer (.body b pc)) : (s.resumeBody b pc answer).Watched := by
  obtain ⟨hfail, hinstall⟩ := hsafe
  rw [watched_iff] at *
  cases pc <;>
    grind [State.resumeBody, BodyPc.installsWatch, State.bodyWatch, State.bodyShowLater,
      State.installWatch, State.emit, State.push, State.finishBody, State.lockAndTurnOff,
      State.turnOffScreen, State.turnOnScreen, State.callLogind, State.setSuspended,
      State.deleteAction, State.isCancelled]

theorem Watched.resumeThread {t : Thread} {answer : Bool}
    (hsafe : s.WatchSafeThread answer t) : (s.resumeThread t answer).Watched := by
  cases t with
  | queued lock action watchEarly forSleep => exact h.resumeQueued hsafe _ _
  | body b pc => exact h.resumeBody hsafe
  | bodyFinally b =>
      exact Watched.returnAction (s := { s with actionStartCancellable := none })
        (h.congr rfl rfl rfl rfl rfl) _
  | cancelPocket lock reason ongoing => exact h.resumeCancel hsafe _
  | cancelFinally lock reason returned =>
      have hfree : { s with cancellingActionLock := none }.Watched := h.congr rfl rfl rfl rfl rfl
      simp only [State.resumeThread]
      split
      · exact hfree.settleCancel _ _
      · exact hfree
  | userActive cancelled => exact h.resumeUserActive _
  | powerKeyPress => exact h.powerButtonPress
  | sleepAction => exact h.afterSleepAction
  | suspendAgainPocket ongoing => exact h.resumeSuspendAgain _ _
  | suspendAgainCall =>
      simp only [State.resumeThread]
      split
      · exact h
      · rename_i hanswer
        exact (h.deleteAction (hsafe.resolve_left hanswer)).turnOnScreen
  | wakeUpPocket =>
      rw [watched_iff] at *
      grind [State.resumeThread, State.resumeWakeUp, State.turnOnScreen]
  | inhibit c =>
      rw [watched_iff] at *
      grind [State.resumeThread]

/-- **The step lemma.** -/
theorem Watched.step {e : Event} (hsafe : s.WatchSafe e)
    (hstep : step s e = some s') : s'.Watched := by
  cases e with
  | doSystemAction action watchEarly =>
      cases hstep
      exact h.doSystemAction hsafe _ _
  | powerButtonPress =>
      cases hstep
      exact h.powerButtonPress
  | sessionIsActiveChanged active =>
      cases hstep
      exact h.sessionIsActiveChanged _
  | prepareForSleep aboutToSuspend ok =>
      cases hstep
      exact h.prepareForSleep hsafe
  | userActive powerKey =>
      obtain ⟨hw, rfl⟩ := Option.ite_some_none_eq_some.mp hstep
      exact h.onUserActive hw _
  | ignoreInputTimeout =>
      obtain ⟨-, hsome⟩ := Option.ite_none_left_eq_some.mp hstep
      cases hsome
      exact h.congr rfl rfl rfl rfl rfl
  | suspendAgainTimeout =>
      obtain ⟨ongoing, -, rfl⟩ := Option.map_eq_some_iff.mp hstep
      exact h.congr rfl rfl rfl rfl rfl
  | wakeUpScreen =>
      cases hstep
      split
      · exact h.push _
      · exact h
  | notificationTimeout =>
      obtain ⟨-, rfl⟩ := Option.ite_some_none_eq_some.mp hstep
      exact h.congr rfl rfl rfl rfl rfl
  | deferredIdleBlankTimeout =>
      obtain ⟨hd, -⟩ := Option.ite_some_none_eq_some.mp hstep
      rw [h.notDeferred] at hd
      cases hd
  | loginSessionChanged active =>
      cases hstep
      exact Watched.syncInhibitor (s := { s with loginSessionActive := active })
        (h.congr rfl rfl rfl rfl rfl) _ _ _
  | envChanged env =>
      cases hstep
      exact h.congr rfl rfl rfl rfl rfl
  | lightboxStopped =>
      obtain ⟨screen, -, rfl⟩ := Option.map_eq_some_iff.mp hstep
      exact h.congr rfl rfl rfl rfl rfl
  | resumeScreen i ok brightness =>
      obtain ⟨screen, -, rfl⟩ := Option.map_eq_some_iff.mp hstep
      exact h.congr rfl rfl rfl rfl rfl
  | resume i answer =>
      obtain ⟨⟨t, rest⟩, htake, hready⟩ := Option.bind_eq_some_iff.mp hstep
      obtain ⟨-, rfl⟩ := Option.ite_some_none_eq_some.mp hready
      have hrest : { s with threads := rest }.Watched := h.congr rfl rfl rfl rfl rfl
      refine hrest.resumeThread ?_
      have := hsafe t (by simp [Runs.getElem?_of_take htake])
      cases t <;> exact this

end

/-! ## The result -/

/-- **The watch belongs to an action.** In every run whose steps leave no watch without an
action, a user-active watch that fires finds an action to cancel. -/
theorem watchGuarded_of_reach {s : State}
    (hreach : Runs.Reach PowerManager.step WatchSafe State.init s) : s.WatchGuarded :=
  (hreach.invariant watched_init fun _ _ _ h hok hstep => h.step hok hstep).toWatchGuarded

def suspendUntilCall : List Event :=
  [.doSystemAction .suspend false, .resume 0 true, .lightboxStopped, .resumeScreen 0 true 100,
    .resumeScreen 0 true 100, .resumeScreen 0 true 100, .resume 0 true]

theorem watchGuarded_suspendUntilCall :
    ∃ s, Runs.run PowerManager.step State.init suspendUntilCall = some s ∧ s.WatchGuarded :=
  ⟨_, rfl, watchGuarded_of_reach (Runs.Reach.of_run suspendUntilCall (by decide) rfl)⟩

/-- logind refuses the suspend, and the user touches the screen. -/
theorem not_watchGuarded_suspendFailed : ∃ s t,
      Runs.run PowerManager.step State.init
        (suspendUntilCall ++ [.resume 0 false, .resume 0 true]) = some s ∧
      ¬s.WatchGuarded ∧
      PowerManager.step s (.userActive false) = some t ∧
      t.log.head? = some (.error .userActiveWithoutAction) := by
  refine ⟨_, _, rfl, fun h => ?_, rfl, rfl⟩
  have hguarded := h.guarded rfl
  revert hguarded
  decide

end State

end PowerManager
