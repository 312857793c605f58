import GnomeShellMobile.Runs.Basic
import GnomeShellMobile.PowerManager.Step

/-!
# PowerManager — an entered action can be left again

While an action is recorded every further action but a few upgrades is refused, so something
other than an action has to end it: the user-active watch, or the `PrepareForSleep(false)` that
follows while `_suspended` is set. A watch that has fired is gone; its handler then cancels the
action, or installs the watch again when the device is in a pocket.

* `HasWayOut` — what can end the recorded action.
* `ExitSafe` — the side condition on steps: no entry body returns before the point where it
  installs its watch, no internal error of `_maybeCancelAction`, no ignored power key.
* `Exits` — the inductive invariant.
-/

namespace PowerManager

/-- The `await`s of an entry body before it installs the watch. -/
def BodyPc.beforeWatch : BodyPc → Bool
  | .idleBlankLockDelay => false
  | .sleepCalled => false
  | _ => true

def Thread.watchDue : Thread → Option Nat
  | .body b pc => if pc.beforeWatch && !b.watchEarly then some b.cancellable else none
  | _ => none

def Thread.handlesActive : Thread → Bool
  | .userActive cancelled => !cancelled
  | .powerKeyPress => true
  | _ => false

/-- Cancelling work: what holds `_cancellingActionLock`. -/
def Thread.isCancel : Thread → Bool
  | .cancelPocket _ _ _ => true
  | .cancelFinally _ _ _ => true
  | _ => false

def Thread.isCancelFinally : Thread → Bool
  | .cancelFinally _ _ _ => true
  | _ => false

def returnsAtOnce : Action → Bool
  | .dim => true
  | .shutdown => true
  | .logout => true
  | _ => false

namespace State

variable (s : State)

def BodyFinished : Prop := ∀ t ∈ s.threads, t.running.isSome → t.running ≠ s.entry
deriving Decidable

/-- Something other than a system action ends the recorded action: the watch, the wake-up that
follows a suspend, cancelling work, or the handler of a watch that has fired. -/
def HasWayOut : Prop :=
  s.userActiveId = true ∨ s.suspended = true ∨ s.cancellingActionLock.isSome = true ∨
    ∃ t ∈ s.threads, t.handlesActive = true

/-- Entering `action` does not leave it without a watch at once. -/
def EntrySafe (action : Action) (watchEarly : Bool) : Prop :=
  returnsAtOnce action = true → watchEarly = true ∨ s.userActiveId = true
deriving Decidable

def ExitSafeThread (answer : Bool) : Thread → Prop
  | .queued _ action watchEarly _ => s.EntrySafe action watchEarly
  | .body b .canSleep =>
      answer = false → s.entry = some b.cancellable →
        b.watchEarly = true ∨ s.userActiveId = true
  | .powerKeyPress => s.ignoreInputAfterSuspend = false
  | _ => True

instance (answer : Bool) (t : Thread) : Decidable (s.ExitSafeThread answer t) := by
  rcases t with _ | ⟨_, _ | _⟩ <;> unfold ExitSafeThread <;> infer_instance

/-- An entry body returns before it installs its watch only if a watch is installed; a wake-up
hits no internal error of `_maybeCancelAction`; the power key that fired the watch is not
ignored. -/
def ExitSafe : Event → Prop
  | .doSystemAction action watchEarly =>
      s.cancellingActionLock = none → s.EntrySafe action watchEarly
  | .prepareForSleep false _ =>
      s.cancellingActionLock = none →
        ∀ a ∈ s.isInAction, isSuspendAction a = true ∧ s.suspendAgainTimeout = none
  | .resume i answer => ∀ t ∈ s.threads[i]?, s.ExitSafeThread answer t
  | _ => True

instance (e : Event) : Decidable (s.ExitSafe e) := by
  rcases e with _ | _ | _ | ⟨_ | _, _⟩ <;> unfold ExitSafe <;> infer_instance

/-! ## The invariant -/

def WatchDue : Prop :=
  ∃ t ∈ s.threads, t.watchDue.isSome = true ∧ t.watchDue = s.entry

structure Booked : Prop where
  live : ∀ c, s.entry = some c → c ∉ s.cancelled
  cancelled_lt : ∀ c ∈ s.cancelled, c < s.nextId
  start_lt : ∀ c, s.actionStartCancellable = some c → c < s.nextId
  torn : ∀ t ∈ s.threads, t.isCancelFinally = true → s.isInAction = none
  pocket : ∀ lock reason a, .cancelPocket lock reason a ∈ s.threads →
    reason = .suspendWakeup ∨ reason = .userActive
  locked : s.cancellingActionLock = none → ∀ t ∈ s.threads, t.isCancel = false
  alone : s.threads.countP Thread.isCancel ≤ 1
  notIdle : s.userAlreadyIdle = false
  notDeferred : s.deferredIdleBlankId = false

structure Exits : Prop extends Booked s where
  exit : s.isInAction.isSome = true → s.HasWayOut ∨ s.WatchDue

theorem exits_init : State.init.Exits := by
  refine ⟨?_, ?_⟩
  · constructor <;> simp [State.init]
  · simp [State.init]

def exitView :=
  (s.isInAction, s.entry, s.userActiveId, s.suspended, s.cancellingActionLock, s.threads,
    s.cancelled, s.actionStartCancellable, s.nextId, s.userAlreadyIdle, s.deferredIdleBlankId)

variable {s s' : State}

theorem Booked.congr (h : s.Booked) (hv : s'.exitView = s.exitView) : s'.Booked := by
  simp only [exitView, Prod.mk.injEq] at hv
  obtain ⟨ha, he, hu, hs, hk, ht, hx, hc, hn, hi, hd⟩ := hv
  constructor
  · rw [he, hx]
    exact h.live
  · rw [hx, hn]
    exact h.cancelled_lt
  · rw [hc, hn]
    exact h.start_lt
  · rw [ht, ha]
    exact h.torn
  · rw [ht]
    exact h.pocket
  · rw [hk, ht]
    exact h.locked
  · rw [ht]
    exact h.alone
  · rw [hi]
    exact h.notIdle
  · rw [hd]
    exact h.notDeferred

theorem Exits.congr (h : s.Exits) (hv : s'.exitView = s.exitView) : s'.Exits := by
  refine ⟨h.toBooked.congr hv, ?_⟩
  simp only [exitView, Prod.mk.injEq] at hv
  obtain ⟨ha, he, hu, hs, hk, ht, -⟩ := hv
  unfold HasWayOut WatchDue
  rw [ha, he, hu, hs, hk, ht]
  exact h.exit

theorem Exits.setScreen (h : s.Exits) (screen : Screen) : { s with screen := screen }.Exits :=
  h.congr rfl

theorem Exits.emit (h : s.Exits) (e : Effect) : (s.emit e).Exits := h.congr rfl

theorem Exits.throw (h : s.Exits) (e : Error) : (s.throw e).Exits := h.congr rfl

theorem HasWayOut.push (h : s.HasWayOut) (t : Thread) : (s.push t).HasWayOut :=
  h.imp_right fun h => h.imp_right fun h => h.imp_right fun ⟨u, hu, hh⟩ =>
    ⟨u, List.mem_cons_of_mem _ hu, hh⟩

theorem WatchDue.push (h : s.WatchDue) (t : Thread) : (s.push t).WatchDue := by
  obtain ⟨u, hu, hdue⟩ := h
  exact ⟨u, List.mem_cons_of_mem _ hu, hdue⟩

theorem Booked.push (h : s.Booked) {t : Thread} (ht : t.isCancel = false) : (s.push t).Booked where
  __ := h
  torn u hu hf := by
    rcases List.mem_cons.mp hu with rfl | hu
    · cases u <;> simp_all [Thread.isCancel, Thread.isCancelFinally]
    · exact h.torn u hu hf
  pocket lock reason a hu := by
    rcases List.mem_cons.mp hu with rfl | hu
    · simp [Thread.isCancel] at ht
    · exact h.pocket lock reason a hu
  locked hk u hu := by
    rcases List.mem_cons.mp hu with rfl | hu
    · exact ht
    · exact h.locked hk u hu
  alone := by
    show (t :: s.threads).countP Thread.isCancel ≤ 1
    rw [List.countP_cons_of_neg (by simp [ht])]
    exact h.alone

theorem Exits.push (h : s.Exits) {t : Thread} (ht : t.isCancel = false) : (s.push t).Exits :=
  ⟨h.toBooked.push ht, fun ha => (h.exit ha).imp (fun hw => hw.push t) fun hd => hd.push t⟩

theorem hasWayOut_installWatch (entry : Option Nat) : (s.installWatch entry).HasWayOut := by
  unfold State.installWatch
  split
  · rename_i hw
    exact Or.inl hw
  · exact Or.inl rfl

theorem Booked.installWatch (h : s.Booked) (entry : Option Nat) : (s.installWatch entry).Exits := by
  refine ⟨?_, fun _ => Or.inl (hasWayOut_installWatch entry)⟩
  unfold State.installWatch
  split
  · exact h
  · exact { h with }

theorem Booked.setSuspended (h : s.Booked) : s.setSuspended.Exits :=
  { h with exit := fun _ => Or.inl (Or.inr (Or.inl rfl)) }

theorem Booked.inactive (h : s.Booked) (suspended woken : Bool) :
    { s with isInAction := none, entry := none, suspended := suspended, woken := woken }.Exits :=
  { h with exit := by simp, live := by simp, torn := by simp }

theorem Booked.cancelStart (h : s.Booked) : s.cancelStart.Exits where
  __ := h
  exit := by simp [State.cancelStart, State.deleteAction]
  live := by simp [State.cancelStart, State.deleteAction]
  cancelled_lt c hc := by
    rcases List.mem_append.mp hc with hc | hc
    · exact h.start_lt c (by simpa using hc)
    · exact h.cancelled_lt c hc
  start_lt := by simp [State.cancelStart, State.deleteAction]
  torn := by simp [State.cancelStart, State.deleteAction]

theorem Exits.returnAction (h : s.Exits) (forSleep : Bool) : (s.returnAction forSleep).Exits := by
  unfold State.returnAction
  split
  · exact h.push rfl
  · exact h

theorem Exits.settleCancel (h : s.Exits) (reason : CancelReason) (returned : Bool) :
    (s.settleCancel reason returned).Exits := by
  unfold State.settleCancel
  split
  · exact h.push rfl
  · exact h

theorem Booked.syncInhibitor (h : s.Booked) (shouldInhibit sync ok : Bool) :
    (s.syncInhibitor shouldInhibit sync ok).Booked := by
  unfold State.syncInhibitor
  extract_lets inhibit s₁
  have h₁ : s₁.Booked :=
    { h with
      cancelled_lt := fun c hc => Nat.lt_succ_of_lt (h.cancelled_lt c hc)
      start_lt := fun c hc => Nat.lt_succ_of_lt (h.start_lt c hc) }
  split
  · exact h
  · split
    · split
      · exact h₁.congr rfl
      · exact h₁.push rfl
    · exact h₁.congr rfl

theorem Exits.syncInhibitor (h : s.Exits) (shouldInhibit sync ok : Bool) :
    (s.syncInhibitor shouldInhibit sync ok).Exits := by
  refine ⟨h.toBooked.syncInhibitor _ _ _, ?_⟩
  unfold State.syncInhibitor
  extract_lets inhibit s₁
  have hexit : s₁.isInAction.isSome = true → s₁.HasWayOut ∨ s₁.WatchDue := h.exit
  split
  · exact h.exit
  · split
    · split
      · exact hexit
      · exact fun ha => (hexit ha).imp (fun hw => hw.push _) fun hd => hd.push _
    · exact hexit

/-! ### Cancelling -/

theorem tearDown_isInAction (ongoing : Action) : (s.tearDown ongoing).isInAction = none := by
  grind [State.tearDown, State.cancelStart, State.deleteAction, State.throw, State.emit,
    State.turnOnScreen]

theorem tearDown_threads (ongoing : Action) : (s.tearDown ongoing).threads = s.threads := by
  grind [State.tearDown, State.cancelStart, State.deleteAction, State.throw, State.emit,
    State.turnOnScreen]

section

variable (h : s.Booked)
include h

theorem Booked.tearDown (ongoing : Action) : (s.tearDown ongoing).Exits := by
  have hidle : s.cancelStart.userAlreadyIdle = false := h.notIdle
  have hdel : { s.cancelStart with userActiveId := false }.Exits :=
    { h.cancelStart with exit := by simp [State.cancelStart, State.deleteAction] }
  unfold State.tearDown
  extract_lets s₁ s₂ s₃ s₄
  have hthrow : s₁.tearDownThrows = false := by simp [s₁, tearDownThrows, hidle]
  have h₂ : s₂.Exits := by
    unfold s₂
    rw [if_neg (by simp [s₁, hidle])]
    exact hdel
  have h₃ : s₃.Exits := h₂.congr rfl
  rw [if_neg (by simp [hthrow])]
  cases ongoing with
  | idleBlank =>
      have h₄ : s₄.Exits := by
        unfold s₄
        split
        · exact h₃.emit _
        · exact h₃
      exact h₄.congr rfl
  | dim | blank | suspend | suspendForced | hibernate | shutdown | logout | nothing =>
      exact h₂.congr rfl

theorem Booked.beginCancel {t : Thread} (hfree : ∀ u ∈ s.threads, u.isCancel = false)
    (hfinally : t.isCancelFinally = true → s.isInAction = none)
    (hpocket : ∀ lock reason a, t = .cancelPocket lock reason a →
      reason = .suspendWakeup ∨ reason = .userActive) :
    (s.lockCancelling.push t).Exits where
  __ := h
  exit _ := Or.inl (Or.inr (Or.inr (Or.inl rfl)))
  cancelled_lt c hc := Nat.lt_succ_of_lt (h.cancelled_lt c hc)
  start_lt c hc := Nat.lt_succ_of_lt (h.start_lt c hc)
  torn u hu hf := by
    rcases List.mem_cons.mp hu with rfl | hu
    · exact hfinally hf
    · exact h.torn u hu hf
  pocket lock reason a hu := by
    rcases List.mem_cons.mp hu with heq | hu
    · exact hpocket lock reason a heq.symm
    · exact h.pocket lock reason a hu
  locked hk := by cases hk
  alone := by
    show (t :: s.threads).countP Thread.isCancel ≤ 1
    have hzero : s.threads.countP Thread.isCancel = 0 :=
      List.countP_eq_zero.mpr fun u hu => by simp [hfree u hu]
    have hcons := List.countP_cons (p := Thread.isCancel) (a := t) (l := s.threads)
    split at hcons <;> omega

/-- A cancel that hits no internal error: it is disallowed while suspended, it finds another
cancel at work, the action is gone, or the cancelling work waits for the proximity sensor. -/
theorem Booked.maybeCancelAction {reason : CancelReason}
    (hsafe : reason = .suspendWakeup → s.cancellingActionLock = none →
      ∀ a ∈ s.isInAction, isSuspendAction a = true ∧ s.suspendAgainTimeout = none) :
    (s.maybeCancelAction reason).Exits := by
  unfold State.maybeCancelAction
  split
  · rename_i hnone
    exact Exits.throw ⟨h, fun ha => by simp [hnone] at ha⟩ _
  · rename_i ongoing ha
    split
    · rename_i hs
      exact Exits.settleCancel ⟨h, fun _ => Or.inl (Or.inr (Or.inl hs))⟩ _ _
    · split
      · rename_i hlock
        have hexits : s.Exits := ⟨h, fun _ => Or.inl (Or.inr (Or.inr (Or.inl hlock)))⟩
        split
        · exact Exits.settleCancel (s := { s with newActionQueued := false })
            (hexits.congr rfl) _ _
        · exact hexits.settleCancel _ _
      · rename_i hlock
        have hfree := h.locked (by simpa using hlock)
        have hdone : ((s.tearDown ongoing).lockCancelling.push
            (.cancelFinally s.nextId reason (!s.tearDownThrows))).Exits :=
          (h.tearDown ongoing).toBooked.beginCancel (by rwa [tearDown_threads])
            (fun _ => tearDown_isInAction ongoing) (by simp)
        cases reason with
        | powerButtonPress | sessionInactive => exact hdone
        | suspendWakeup =>
            obtain ⟨hs, ht⟩ := hsafe rfl (by simpa using hlock) ongoing ha
            simp only [hs, ht, Bool.not_true, Bool.false_eq_true, ↓reduceIte, Option.isSome_none]
            exact h.beginCancel hfree (by simp [Thread.isCancelFinally]) (by simp)
        | userActive =>
            dsimp only
            split
            · exact hdone
            · exact h.beginCancel hfree (by simp [Thread.isCancelFinally]) (by simp)

theorem Booked.endCancel (hfree : ∀ u ∈ s.threads, u.isCancel = false) :
    { s with cancellingActionLock := none }.Booked :=
  { h with locked := fun _ => hfree }

theorem Booked.endCancel_inactive (hfree : ∀ u ∈ s.threads, u.isCancel = false)
    (hnone : s.isInAction = none) : { s with cancellingActionLock := none }.Exits :=
  ⟨h.endCancel hfree, fun ha => by simp [hnone] at ha⟩

/-- The proximity sensor has answered. In a pocket the watch is installed again, at once or by
the handler that waits for the cancel; else the action is deleted. -/
theorem Booked.resumeCancel (hfree : ∀ u ∈ s.threads, u.isCancel = false)
    {reason : CancelReason} (hreason : reason = .suspendWakeup ∨ reason = .userActive)
    (ongoing : Action) (near : Bool) : (s.resumeCancel reason ongoing near).Exits := by
  unfold State.resumeCancel
  split
  · rcases hreason with rfl | rfl
    · have hwatch := (h.endCancel hfree).installWatch none
      have hset : { s.installWatch none with
          suspendAgainTimeout := some ongoing, cancellingActionLock := none }.Exits := by
        refine hwatch.congr ?_
        unfold State.installWatch
        split <;> rfl
      exact hset.settleCancel _ _
    · refine ⟨(h.endCancel hfree).push rfl, fun _ => Or.inl (Or.inr (Or.inr (Or.inr ?_)))⟩
      exact ⟨.userActive false, List.mem_cons_self, rfl⟩
  · have htorn : { s.tearDown ongoing with cancellingActionLock := none }.Exits :=
      (h.tearDown ongoing).toBooked.endCancel_inactive (by rwa [tearDown_threads])
        (tearDown_isInAction ongoing)
    dsimp only
    split
    · exact htorn.settleCancel _ _
    · exact htorn

end

/-! ### Entering an action -/

/-- An entry body has been taken out of the pool, or is about to be entered: it may be the one
that has still to install the watch. -/
structure ExitsWith (s : State) (b : Body) : Prop extends Booked s where
  exit : s.isInAction.isSome = true →
    s.HasWayOut ∨ s.WatchDue ∨ (s.entry = some b.cancellable ∧ b.watchEarly = false)

variable {b : Body}

section

variable (h : s.ExitsWith b)
include h

theorem ExitsWith.congr (hv : s'.exitView = s.exitView) : s'.ExitsWith b := by
  refine ⟨h.toBooked.congr hv, ?_⟩
  simp only [exitView, Prod.mk.injEq] at hv
  obtain ⟨ha, he, hu, hs, hk, ht, -⟩ := hv
  unfold HasWayOut WatchDue
  rw [ha, he, hu, hs, hk, ht]
  exact h.exit

theorem ExitsWith.pushBody {pc : BodyPc} (hpc : pc.beforeWatch = true) :
    (s.push (.body b pc)).Exits := by
  refine ⟨h.toBooked.push rfl, fun ha => ?_⟩
  rcases h.exit ha with hw | hd | ⟨he, hw⟩
  · exact Or.inl (hw.push _)
  · exact Or.inr (hd.push _)
  · refine Or.inr ⟨.body b pc, List.mem_cons_self, ?_, ?_⟩
    · simp [Thread.watchDue, hpc, hw]
    · simpa [Thread.watchDue, hpc, hw, State.push] using he.symm

theorem ExitsWith.of_cancelled (hc : s.isCancelled b.cancellable = true) :
    s.Exits := by
  refine ⟨h.toBooked, fun ha => ?_⟩
  rcases h.exit ha with hw | hd | ⟨he, -⟩
  · exact Or.inl hw
  · exact Or.inr hd
  · exact absurd (by simpa [State.isCancelled] using hc) (h.live _ he)

theorem ExitsWith.bodyWatch : (s.bodyWatch b).Exits := by
  unfold State.bodyWatch
  split
  · rename_i hw
    refine ⟨h.toBooked, fun ha => ?_⟩
    rcases h.exit ha with hw' | hd | ⟨-, hlate⟩
    · exact Or.inl hw'
    · exact Or.inr hd
    · rw [hw] at hlate
      cases hlate
  · exact h.toBooked.installWatch _

theorem ExitsWith.turnOffScreen (owner : Option Nat) :
    (s.turnOffScreen owner).ExitsWith b :=
  h.congr rfl

theorem ExitsWith.emit (e : Effect) : (s.emit e).ExitsWith b := h.congr rfl

theorem ExitsWith.lockAndTurnOff {pc : Bool → BodyPc}
    (hpc : ∀ l, (pc l).beforeWatch = true) : (s.lockAndTurnOff b pc).Exits := by
  unfold State.lockAndTurnOff
  dsimp only
  split
  · exact ((h.emit _).turnOffScreen _).pushBody (hpc _)
  · exact (h.turnOffScreen _).pushBody (hpc _)

theorem ExitsWith.enterBody
    (hreturn : returnsAtOnce b.action = true → s.userActiveId = true)
    (hne : b.action ≠ .nothing) : (s.enterBody b).Exits := by
  have hat : returnsAtOnce b.action = true → s.Exits := fun hr =>
    ⟨h.toBooked, fun _ => Or.inl (Or.inl (hreturn hr))⟩
  unfold State.enterBody
  cases ha : b.action with
  | dim => exact ((hat (by rw [ha]; rfl)).setScreen _).push rfl
  | shutdown => exact (hat (by rw [ha]; rfl)).push rfl
  | logout => exact (hat (by rw [ha]; rfl)).push rfl
  | nothing => exact absurd ha hne
  | idleBlank => exact (h.turnOffScreen _).pushBody rfl
  | blank => exact h.lockAndTurnOff fun _ => rfl
  | suspend => exact h.pushBody rfl
  | hibernate => exact h.pushBody rfl
  | suspendForced =>
      have hset : s.setSuspended.Exits := h.toBooked.setSuspended
      dsimp only
      split
      · exact (hset.emit _).push rfl
      · exact (hset.setScreen _).push rfl

end

section

variable (h : s.Exits)
include h

theorem Exits.startAction {action : Action} {watchEarly : Bool}
    (hlock : s.cancellingActionLock = none) (hsafe : s.EntrySafe action watchEarly)
    (hne : action ≠ .nothing) (forSleep : Bool) :
    (s.startAction action watchEarly forSleep).Exits := by
  unfold State.startAction
  extract_lets s₁ c
  have h₁ : s₁.Exits := by
    unfold s₁
    split
    · exact h.toBooked.installWatch _
    · exact h
  have hearly : watchEarly = true ∨ s.userActiveId = true → s₁.userActiveId = true := by
    intro hw
    unfold s₁ State.installWatch
    cases watchEarly with
    | false => simpa using hw
    | true =>
        simp only [↓reduceIte]
        split
        · assumption
        · rfl
  have hlock₁ : s₁.cancellingActionLock = none := by
    unfold s₁ State.installWatch
    split
    · split <;> exact hlock
    · exact hlock
  have hfree := h₁.locked hlock₁
  set s₂ := { s₁ with
    nextId := c + 1
    actionStartCancellable := some c
    isInAction := some action
    entry := some c
    woken := false } with hs₂
  have h₂ : s₂.ExitsWith ⟨action, c, watchEarly, forSleep⟩ := {
    __ := h₁
    live := fun d hd hc => by
      cases hd
      exact Nat.lt_irrefl _ (h₁.cancelled_lt c hc)
    cancelled_lt := fun d hd => Nat.lt_succ_of_lt (h₁.cancelled_lt d hd)
    start_lt := fun d hd => by
      cases hd
      exact Nat.lt_succ_self c
    torn := fun t ht hf => by
      have := hfree t ht
      cases t <;> simp_all [Thread.isCancel, Thread.isCancelFinally]
    exit := fun _ => by
      cases hw : watchEarly with
      | false => exact Or.inr (Or.inr ⟨rfl, rfl⟩)
      | true => exact Or.inl (Or.inl (hearly (Or.inl hw))) }
  exact h₂.enterBody (fun hr => hearly (hsafe hr)) hne

theorem Exits.enterAction {action : Action} {watchEarly : Bool}
    (hlock : s.cancellingActionLock = none) (hsafe : s.EntrySafe action watchEarly)
    (forSleep : Bool) : (s.enterAction action watchEarly forSleep).Exits := by
  unfold State.enterAction
  split
  · exact h.returnAction _
  · split
    · exact h.returnAction _
    · split
      · exact h.throw _
      · split
        · exact h.throw _
        · split
          · exact h.returnAction _
          · rename_i hne
            exact h.startAction hlock hsafe hne _

theorem Exits.upgrade_enterAction {action : Action} {watchEarly : Bool}
    (hlock : s.cancellingActionLock = none) (hsafe : s.EntrySafe action watchEarly)
    (forSleep : Bool) : ((s.upgrade action).enterAction action watchEarly forSleep).Exits := by
  unfold State.upgrade
  split
  · exact h.toBooked.cancelStart.enterAction hlock hsafe _
  · exact h.enterAction hlock hsafe _

theorem Exits.doSystemAction {action : Action} {watchEarly : Bool}
    (hsafe : s.cancellingActionLock = none → s.EntrySafe action watchEarly) (forSleep : Bool) :
    (s.doSystemAction action watchEarly forSleep).Exits := by
  unfold State.doSystemAction
  split
  · exact Exits.push (s := { s with newActionQueued := true }) (h.congr rfl) rfl
  · rename_i hlock
    exact h.upgrade_enterAction hlock (hsafe hlock) _

theorem Exits.resumeQueued {action : Action} {watchEarly : Bool}
    (hlock : s.cancellingActionLock = none) (hsafe : s.EntrySafe action watchEarly)
    (forSleep : Bool) : (s.resumeQueued action watchEarly forSleep).Exits := by
  unfold State.resumeQueued
  split
  · exact h.returnAction _
  · have h' : { s with newActionQueued := false }.Exits := h.congr rfl
    exact h'.upgrade_enterAction hlock hsafe _

end

theorem ExitsWith.resumeBody (h : s.ExitsWith b) {pc : BodyPc} {answer : Bool}
    (hpast : pc.beforeWatch = false → s.Exits)
    (hsafe : s.ExitSafeThread answer (.body b pc)) : (s.resumeBody b pc answer).Exits := by
  have hlater : ∀ later, (s.bodyShowLater b later).ExitsWith b := by
    intro later
    unfold State.bodyShowLater
    split
    · exact h.emit _
    · exact h
  cases pc with
  | idleBlankFaded =>
      simp only [State.resumeBody]
      split
      · rename_i hc
        exact (h.of_cancelled hc).push rfl
      · exact h.pushBody rfl
  | idleBlankSlept =>
      simp only [State.resumeBody]
      split
      · rename_i hc
        exact (h.of_cancelled hc).push rfl
      · split
        · exact (h.bodyWatch.emit _).push rfl
        · exact (h.bodyWatch.emit _).push rfl
  | idleBlankLockDelay =>
      have hexits := hpast rfl
      simp only [State.resumeBody]
      split
      · exact hexits.push rfl
      · exact (hexits.emit _).push rfl
  | blankFaded later =>
      simp only [State.resumeBody]
      split
      · rename_i hc
        exact ((hlater later).of_cancelled hc).push rfl
      · exact (hlater later).pushBody rfl
  | blankSlept | forcedFaded =>
      simp only [State.resumeBody]
      split
      · rename_i hc
        exact (h.of_cancelled hc).push rfl
      · exact h.bodyWatch.push rfl
  | canSleep =>
      simp only [State.resumeBody]
      split
      · rename_i hno
        refine Exits.push ⟨h.toBooked, fun ha => ?_⟩ rfl
        rcases h.exit ha with hw | hd | ⟨he, hlate⟩
        · exact Or.inl hw
        · exact Or.inr hd
        · rcases hsafe (by simpa using hno) he with hearly | hw
          · rw [hearly] at hlate
            cases hlate
          · exact Or.inl (Or.inl hw)
      · split
        · rename_i hc
          exact (h.of_cancelled hc).push rfl
        · exact h.lockAndTurnOff fun _ => rfl
  | sleepFaded later =>
      simp only [State.resumeBody]
      split
      · rename_i hc
        exact ((hlater later).of_cancelled hc).push rfl
      · have hset : (((s.bodyShowLater b later).bodyWatch b).setSuspended).Exits :=
          (hlater later).bodyWatch.toBooked.setSuspended
        refine Exits.push ?_ rfl
        unfold State.callLogind
        dsimp only
        split <;> exact hset.emit _
  | sleepCalled =>
      have hexits := hpast rfl
      simp only [State.resumeBody]
      split
      · exact hexits.push rfl
      · have hdel : { s.turnOnScreen.deleteAction with suspended := false }.Exits :=
          (hexits.setScreen _).toBooked.inactive false false
        exact hdel.push rfl
  | forcedPainted =>
      simp only [State.resumeBody]
      split
      · rename_i hc
        exact (h.of_cancelled hc).push rfl
      · exact (h.turnOffScreen _).pushBody rfl

/-! ### The other functions -/

theorem Exits.afterSleepAction (h : s.Exits) : s.afterSleepAction.Exits := by
  unfold State.afterSleepAction
  split
  · exact h
  · split
    · exact h
    · split
      · exact h.throw _
      · exact h.syncInhibitor _ _ _

theorem Exits.prepareForSleep (h : s.Exits) {aboutToSuspend ok : Bool}
    (hsafe : s.ExitSafe (.prepareForSleep aboutToSuspend ok)) :
    (s.prepareForSleep aboutToSuspend ok).Exits := by
  have hentry : ∀ u : State, u.EntrySafe .suspendForced false := fun u hr => by
    simp [returnsAtOnce] at hr
  unfold State.prepareForSleep
  extract_lets s₁ s₂ s₃ s₄
  have h₁ : s₁.Exits := h.congr rfl
  have h₂ : s₂.Booked := { h.toBooked with }
  have h₄ : s₄.Booked := (h₂.syncInhibitor true true ok).congr rfl
  split
  · split
    · exact h₁.doSystemAction (fun _ => hentry _) _
    · split
      · exact h₁.doSystemAction (fun _ => hentry _) _
      · exact h₁.afterSleepAction
  · rename_i hwake
    obtain ⟨ha, hk, ht, -⟩ := s₂.syncInhibitor_frame true true ok
    split
    · refine h₄.maybeCancelAction fun _ hlock => ?_
      rw [show s₄.cancellingActionLock = s₂.cancellingActionLock from hk] at hlock
      rw [show s₄.isInAction = s₂.isInAction from ha,
        show s₄.suspendAgainTimeout = s₂.suspendAgainTimeout from ht]
      rw [Bool.eq_false_iff.mpr hwake] at hsafe
      exact hsafe hlock
    · rename_i hnone
      exact Exits.setScreen ⟨h₄, fun ha => absurd ha hnone⟩ _

theorem Exits.onUserActive (h : s.Exits) (powerKey : Bool) : (s.onUserActive powerKey).Exits := by
  have hb : { s with userActiveId := false, userAlreadyIdle := false }.Booked :=
    { h.toBooked with notIdle := rfl }
  unfold State.onUserActive
  rw [if_neg (by simp [h.notDeferred])]
  split
  · rename_i hnone
    have hfired : { s with userActiveId := false }.Booked := { h.toBooked with }
    exact Exits.throw (s := { s with userActiveId := false })
      ⟨hfired, fun ha => by cases hs : s.isInAction <;> simp_all⟩ _
  · split
    · refine ⟨hb.push rfl, fun _ => Or.inl (Or.inr (Or.inr (Or.inr ?_)))⟩
      exact ⟨.powerKeyPress, List.mem_cons_self, rfl⟩
    · exact hb.maybeCancelAction (by simp)

theorem Booked.resumeUserActive (h : s.Booked) : (s.resumeUserActive false).Exits := by
  unfold State.resumeUserActive
  rw [if_neg (by simp)]
  split
  · rename_i hgone
    refine ⟨h, fun ha => Or.inl (Or.inr (Or.inr (Or.inl ?_)))⟩
    simpa [Option.isNone_eq_false_iff.mpr ha] using hgone
  · exact h.installWatch _

theorem Booked.powerButtonPress (h : s.Booked) (hsafe : s.ignoreInputAfterSuspend = false) :
    s.powerButtonPress.Exits := by
  unfold State.powerButtonPress
  rw [if_neg (by simp [hsafe])]
  split
  · exact h.maybeCancelAction (by simp)
  · rename_i hnone
    exact ⟨h, fun ha => absurd ha hnone⟩

theorem Exits.powerButtonPress (h : s.Exits) : s.powerButtonPress.Exits := by
  unfold State.powerButtonPress
  split
  · exact h
  · split
    · exact h.toBooked.maybeCancelAction (by simp)
    · exact h

theorem Exits.sessionIsActiveChanged (h : s.Exits) (active : Bool) :
    (s.sessionIsActiveChanged active).Exits := by
  have h₁ : { s with sessionIsActive := active }.Exits := h.congr rfl
  unfold State.sessionIsActiveChanged
  split
  · exact h
  · dsimp only
    split
    · exact h₁.toBooked.maybeCancelAction (by simp)
    · exact h₁

theorem Exits.resumeSuspendAgain (h : s.Exits) (ongoing : Action) (near : Bool) :
    (s.resumeSuspendAgain ongoing near).Exits := by
  unfold State.resumeSuspendAgain
  split
  · exact h.throw _
  · rename_i ha
    have hsome : s.isInAction = some ongoing := by simpa using ha
    split
    · exact {
        h with
        exit := fun _ => h.exit (by simp [hsome])
        torn := fun t ht hf => by
          have hnone := h.torn t ht hf
          rw [hsome] at hnone
          cases hnone }
    · exact (h.toBooked.setSuspended.emit _).push rfl

/-! ### The step -/

theorem Booked.rest (h : s.Booked) {t : Thread} {rest : List Thread} {i : Nat}
    (htake : Runs.take s.threads i = some (t, rest)) : { s with threads := rest }.Booked where
  __ := h
  torn u hu := h.torn u (Runs.mem_of_take htake hu)
  pocket lock reason a hu := h.pocket lock reason a (Runs.mem_of_take htake hu)
  locked hk u hu := h.locked hk u (Runs.mem_of_take htake hu)
  alone := by
    have hperm := (Runs.take_perm htake).countP_eq Thread.isCancel
    have hcons := List.countP_cons (p := Thread.isCancel) (a := t) (l := rest)
    have halone := h.alone
    show rest.countP Thread.isCancel ≤ 1
    omega

theorem Exits.exit_rest (h : s.Exits) {t : Thread} {rest : List Thread} {i : Nat}
    (htake : Runs.take s.threads i = some (t, rest)) (ht : t.handlesActive = false)
    (ha : s.isInAction.isSome = true) :
    { s with threads := rest }.HasWayOut ∨ { s with threads := rest }.WatchDue ∨
      (t.watchDue.isSome = true ∧ t.watchDue = s.entry) := by
  rcases h.exit ha with (hw | hw | hw | ⟨u, hu, hh⟩) | ⟨u, hu, hd⟩
  · exact Or.inl (Or.inl hw)
  · exact Or.inl (Or.inr (Or.inl hw))
  · exact Or.inl (Or.inr (Or.inr (Or.inl hw)))
  · rcases Runs.mem_cases_of_take htake hu with rfl | hu
    · rw [ht] at hh
      cases hh
    · exact Or.inl (Or.inr (Or.inr (Or.inr ⟨u, hu, hh⟩)))
  · rcases Runs.mem_cases_of_take htake hu with rfl | hu
    · exact Or.inr (Or.inr hd)
    · exact Or.inr (Or.inl ⟨u, hu, hd⟩)

theorem Exits.rest (h : s.Exits) {t : Thread} {rest : List Thread} {i : Nat}
    (htake : Runs.take s.threads i = some (t, rest)) (ht : t.handlesActive = false)
    (hd : t.watchDue = none) : { s with threads := rest }.Exits := by
  refine ⟨h.toBooked.rest htake, fun ha => ?_⟩
  rcases h.exit_rest htake ht ha with hw | hw | ⟨hsome, -⟩
  · exact Or.inl hw
  · exact Or.inr hw
  · simp [hd] at hsome

theorem Exits.rest_body (h : s.Exits) {b : Body} {pc : BodyPc} {rest : List Thread} {i : Nat}
    (htake : Runs.take s.threads i = some (.body b pc, rest)) :
    { s with threads := rest }.ExitsWith b := by
  refine ⟨h.toBooked.rest htake, fun ha => ?_⟩
  rcases h.exit_rest htake rfl ha with hw | hw | ⟨hsome, he⟩
  · exact Or.inl hw
  · exact Or.inr (Or.inl hw)
  · refine Or.inr (Or.inr ?_)
    have hc : (pc.beforeWatch && !b.watchEarly) = true := by
      by_contra hc
      simp [Thread.watchDue, hc] at hsome
    rw [Thread.watchDue, if_pos hc] at he
    simp only [Bool.and_eq_true, Bool.not_eq_true'] at hc
    exact ⟨he.symm, hc.2⟩

theorem Booked.free_rest (h : s.Booked) {t : Thread} {rest : List Thread} {i : Nat}
    (htake : Runs.take s.threads i = some (t, rest)) (ht : t.isCancel = true) :
    ∀ u ∈ rest, u.isCancel = false := by
  have hperm := (Runs.take_perm htake).countP_eq Thread.isCancel
  rw [List.countP_cons_of_pos ht] at hperm
  have halone := h.alone
  intro u hu
  simpa using List.countP_eq_zero.mp (by omega : rest.countP Thread.isCancel = 0) u hu

theorem Exits.resumeThread (h : s.Exits) {t : Thread} {rest : List Thread} {i : Nat}
    {answer : Bool} (htake : Runs.take s.threads i = some (t, rest)) (hready : s.isReady t = true)
    (hsafe : s.ExitSafeThread answer t) :
    ({ s with threads := rest }.resumeThread t answer).Exits := by
  have hb := h.toBooked.rest htake
  cases t with
  | queued lock action watchEarly forSleep =>
      exact (h.rest htake rfl rfl).resumeQueued (by simpa [isReady] using hready) hsafe _
  | body b pc =>
      refine (h.rest_body htake).resumeBody (fun hpc => ?_) ?_
      · exact h.rest htake rfl (by simp [Thread.watchDue, hpc])
      · cases pc <;> exact hsafe
  | bodyFinally b =>
      have hrest : { s with threads := rest, actionStartCancellable := none }.Exits :=
        { h.rest htake rfl rfl with start_lt := by simp }
      exact hrest.returnAction _
  | cancelPocket lock reason ongoing =>
      exact hb.resumeCancel (h.toBooked.free_rest htake rfl)
        (h.pocket _ _ _ (Runs.take_mem htake)) _ _
  | cancelFinally lock reason returned =>
      have hfree : { s with threads := rest, cancellingActionLock := none }.Exits :=
        hb.endCancel_inactive (h.toBooked.free_rest htake rfl)
          (h.torn _ (Runs.take_mem htake) rfl)
      simp only [State.resumeThread]
      split
      · exact hfree.settleCancel _ _
      · exact hfree
  | userActive cancelled =>
      cases cancelled with
      | true => exact h.rest htake rfl rfl
      | false => exact hb.resumeUserActive
  | powerKeyPress => exact hb.powerButtonPress hsafe
  | sleepAction => exact (h.rest htake rfl rfl).afterSleepAction
  | suspendAgainPocket ongoing => exact (h.rest htake rfl rfl).resumeSuspendAgain _ _
  | suspendAgainCall =>
      have hrest := h.rest htake rfl rfl
      simp only [State.resumeThread]
      split
      · exact hrest
      · exact (hrest.toBooked.inactive false false).setScreen _
  | wakeUpPocket =>
      have hrest := h.rest htake rfl rfl
      simp only [State.resumeThread, State.resumeWakeUp]
      split
      · exact hrest
      · split
        · exact hrest
        · exact hrest.congr rfl
  | inhibit c =>
      have hrest := h.rest htake rfl rfl
      simp only [State.resumeThread]
      split
      · exact hrest.congr rfl
      · exact hrest

/-- **The step lemma.** -/
theorem Exits.step (h : s.Exits) {e : Event} (hsafe : s.ExitSafe e)
    (hstep : step s e = some s') : s'.Exits := by
  cases e with
  | doSystemAction action watchEarly =>
      cases hstep
      exact h.doSystemAction hsafe _
  | powerButtonPress =>
      cases hstep
      exact h.powerButtonPress
  | sessionIsActiveChanged active =>
      cases hstep
      exact h.sessionIsActiveChanged _
  | prepareForSleep aboutToSuspend ok =>
      cases hstep
      exact h.prepareForSleep hsafe
  | userActive powerKey =>
      obtain ⟨-, rfl⟩ := Option.ite_some_none_eq_some.mp hstep
      exact h.onUserActive _
  | ignoreInputTimeout =>
      obtain ⟨-, hsome⟩ := Option.ite_none_left_eq_some.mp hstep
      cases hsome
      exact h.congr rfl
  | suspendAgainTimeout =>
      obtain ⟨ongoing, -, rfl⟩ := Option.map_eq_some_iff.mp hstep
      exact Exits.push (s := { s with suspendAgainTimeout := none }) (h.congr rfl) rfl
  | wakeUpScreen =>
      cases hstep
      split
      · exact h.push rfl
      · exact h
  | notificationTimeout =>
      obtain ⟨-, rfl⟩ := Option.ite_some_none_eq_some.mp hstep
      exact h.congr rfl
  | deferredIdleBlankTimeout =>
      obtain ⟨hd, -⟩ := Option.ite_some_none_eq_some.mp hstep
      rw [h.notDeferred] at hd
      cases hd
  | loginSessionChanged active =>
      cases hstep
      exact Exits.syncInhibitor (s := { s with loginSessionActive := active }) (h.congr rfl) _ _ _
  | envChanged env =>
      cases hstep
      exact h.congr rfl
  | lightboxStopped =>
      obtain ⟨screen, -, rfl⟩ := Option.map_eq_some_iff.mp hstep
      exact h.setScreen _
  | resumeScreen i ok brightness =>
      obtain ⟨screen, -, rfl⟩ := Option.map_eq_some_iff.mp hstep
      exact h.setScreen _
  | resume i answer =>
      obtain ⟨⟨t, rest⟩, htake, hrun⟩ := Option.bind_eq_some_iff.mp hstep
      obtain ⟨hready, rfl⟩ := Option.ite_some_none_eq_some.mp hrun
      exact h.resumeThread htake hready (hsafe t (by simp [Runs.getElem?_of_take htake]))

/-! ## The result -/

/-- **No dead action.** In every run whose steps meet `ExitSafe`, a recorded action whose entry
body has finished can be ended by something other than an action. -/
theorem hasWayOut_of_reach {s : State} (hreach : Runs.Reach PowerManager.step ExitSafe State.init s)
    (ha : s.isInAction.isSome = true) (hfinished : s.BodyFinished) : s.HasWayOut := by
  have h : s.Exits := hreach.invariant exits_init fun _ _ _ h hok hstep => h.step hok hstep
  rcases h.exit ha with hw | ⟨t, ht, hsome, he⟩
  · exact hw
  · have hrun : t.running = t.watchDue := by
      cases t with
      | body b pc =>
          simp only [Thread.watchDue] at hsome ⊢
          split at hsome
          · simp_all [Thread.running]
          · cases hsome
      | _ => cases hsome
    exact absurd (hrun.trans he) (hfinished t ht (by rw [hrun]; exact hsome))

def blanked : List Event :=
  [.doSystemAction .blank false, .lightboxStopped, .resumeScreen 0 true 100,
    .resumeScreen 0 true 100, .resumeScreen 0 true 100, .resume 0 true, .resume 0 true,
    .resume 0 true]

theorem hasWayOut_blanked :
    ∃ s, Runs.run PowerManager.step State.init blanked = some s ∧ s.HasWayOut :=
  ⟨_, rfl, hasWayOut_of_reach (Runs.Reach.of_run blanked (by decide) rfl) rfl (by decide)⟩

/-- The watch has fired, and its handler asks the proximity sensor: neither a watch nor
`_suspended` is there to end the blank. -/
theorem watchless_whileCancelling :
    ∃ s, Runs.run PowerManager.step State.init (blanked ++ [.userActive false]) = some s ∧
      s.isInAction = some .blank ∧ s.BodyFinished ∧
      ¬(s.userActiveId = true ∨ s.suspended = true) :=
  ⟨_, rfl, rfl, by decide, by decide⟩

end State

end PowerManager
