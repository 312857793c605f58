import GnomeShellMobile.PowerManager.State

/-!
# PowerManager — the functions and the events

Each function of the source is translated up to its next `await`; what comes after the `await`
is a `Thread`, and `resumeThread` continues it with the answer that was awaited. `step` is one
turn of the main loop: an outside event, a timer, or one continuation resuming.
-/

namespace PowerManager

namespace State

variable (s : State)

/-! ## `_syncInhibitor` -/

def syncInhibitor (shouldInhibit sync ok : Bool) : State :=
  let inhibit := s.screen.loginSession && s.loginSessionActive && shouldInhibit
  if s.inhibited = some inhibit then s
  else
    let s := { s with
      inhibited := some inhibit
      inhibitCancellable := some s.nextId
      nextId := s.nextId + 1 }
    if inhibit then
      if sync then { s with inhibitor := s.inhibitor || ok }
      else s.push (.inhibit (s.nextId - 1))
    else { s with inhibitor := false }

theorem syncInhibitor_frame (shouldInhibit sync ok : Bool) :
    (s.syncInhibitor shouldInhibit sync ok).isInAction = s.isInAction ∧
      (s.syncInhibitor shouldInhibit sync ok).cancellingActionLock = s.cancellingActionLock ∧
      (s.syncInhibitor shouldInhibit sync ok).suspendAgainTimeout = s.suspendAgainTimeout ∧
      (s.syncInhibitor shouldInhibit sync ok).screen = s.screen := by
  unfold syncInhibitor
  dsimp only
  split
  · exact ⟨rfl, rfl, rfl, rfl⟩
  · split
    · split <;> exact ⟨rfl, rfl, rfl, rfl⟩
    · exact ⟨rfl, rfl, rfl, rfl⟩

/-! ## `_maybeCancelAction` -/

def tearDownThrows : Bool := s.userAlreadyIdle && !s.userActiveId

/-- Steps 2 to 4 of a cancel: delete the action variables, defer an idle blank or drop the
user-active watch, and tear the action down. -/
def tearDown (ongoing : Action) : State :=
  let s := s.cancelStart
  if s.tearDownThrows then s.throw .deferWithoutWatch
  else
    let s :=
      if s.userAlreadyIdle then { s with deferredIdleBlankId := true, userAlreadyIdle := false }
      else { s with userActiveId := false }
    match ongoing with
    | .dim => { s with screen := s.screen.undim }
    | .idleBlank =>
        let s := { s with screenOnForNotificationTimeout := false }
        let s := if s.env.shieldActive && !s.env.shieldLocked then s.emit .deactivateShield else s
        s.turnOnScreen
    | .blank => { s with screenOnForNotificationTimeout := false }.turnOnScreen
    | .suspend => { s with suspendAgainTimeout := none }.turnOnScreen
    | .suspendForced => { s with suspendAgainTimeout := none }.turnOnScreen
    | .hibernate => s.turnOnScreen
    | .shutdown => s
    | .logout => s
    | .nothing => s

variable (reason : CancelReason)

/-- The promise of a `_maybeCancelAction` settles: only `_onUserActive` looks at the answer. -/
def settleCancel (returned : Bool) : State :=
  if reason = .userActive then s.push (.userActive returned) else s

def lockCancelling : State :=
  { s with cancellingActionLock := some s.nextId, nextId := s.nextId + 1 }

def isSuspendAction : Action → Bool
  | .suspend => true
  | .suspendForced => true
  | .hibernate => true
  | _ => false

/-- `_maybeCancelAction(cancelReason)` up to its first `await`. -/
def maybeCancelAction : State :=
  match s.isInAction with
  | none => s.throw .cancelWithoutAction
  | some ongoing =>
    if s.suspended then s.settleCancel reason false
    else if s.cancellingActionLock.isSome then
      if s.newActionQueued then { s with newActionQueued := false }.settleCancel reason true
      else s.settleCancel reason false
    else
      let lock := s.nextId
      match reason with
      | .powerButtonPress | .sessionInactive =>
          (s.tearDown ongoing).lockCancelling.push
            (.cancelFinally lock reason (!s.tearDownThrows))
      | .suspendWakeup =>
          if !isSuspendAction ongoing then
            (s.throw (.wakeupWithoutSuspend ongoing)).lockCancelling.push
              (.cancelFinally lock reason false)
          else if s.suspendAgainTimeout.isSome then
            (s.throw .wakeupWithSuspendAgain).lockCancelling.push
              (.cancelFinally lock reason false)
          else s.lockCancelling.push (.cancelPocket lock reason ongoing)
      | .userActive =>
          if ongoing = .dim then
            (s.tearDown ongoing).lockCancelling.push
              (.cancelFinally lock reason (!s.tearDownThrows))
          else s.lockCancelling.push (.cancelPocket lock reason ongoing)

/-- `_maybeCancelAction` after `_isInPocket` answered `near`. Its `finally` handler is the next
job of the same drain of the promise queue, so it is part of this step. -/
def resumeCancel (ongoing : Action) (near : Bool) : State :=
  if near then
    let s :=
      if reason = .suspendWakeup then
        { s.installWatch none with suspendAgainTimeout := some ongoing }
      else s
    { s with cancellingActionLock := none }.settleCancel reason false
  else
    let returned := !s.tearDownThrows
    let s := { s.tearDown ongoing with cancellingActionLock := none }
    if returned then s.settleCancel reason true else s

/-! ## `_doSystemAction` -/

/-- The upgrades `_doSystemAction` allows over a recorded action. -/
def canUpgrade : Option Action → Action → Bool
  | some .dim, a => a ∈ [.blank, .idleBlank, .suspend, .suspendForced, .hibernate, .shutdown, .logout]
  | some .blank, a => a ∈ [.suspend, .suspendForced, .hibernate, .shutdown, .logout]
  | some .idleBlank, a => a ∈ [.suspend, .suspendForced, .hibernate, .shutdown, .logout]
  | some .suspend, a => a == .suspendForced
  | some .hibernate, a => a == .suspendForced
  | _, _ => false

/-- `_doSystemAction` returns without entering an action: `_prepareForSleep(true)` goes on. -/
def returnAction (forSleep : Bool) : State := if forSleep then s.push .sleepAction else s

variable (b : Body)

def finishBody : State := s.push (.bodyFinally b)

def lockAndTurnOff (pc : Bool → BodyPc) : State :=
  let s := if s.env.lockEnabled then s.emit (.lock b.cancellable) else s
  (s.turnOffScreen (some b.cancellable)).push (.body b (pc s.env.lockEnabled))

/-- The entry body of an action up to its first `await`. -/
def enterBody : State :=
  match b.action with
  | .dim => { s with screen := s.screen.dim }.finishBody b
  | .idleBlank => (s.turnOffScreen (some b.cancellable)).push (.body b .idleBlankFaded)
  | .blank => s.lockAndTurnOff b .blankFaded
  | .suspend => s.push (.body b .canSleep)
  | .suspendForced =>
      let s := s.setSuspended
      if s.env.lockEnabled && !s.env.shieldLocked then
        (s.emit (.lock b.cancellable)).push (.body b .forcedPainted)
      else (s.turnOffScreen (some b.cancellable)).push (.body b .forcedFaded)
  | .hibernate => s.push (.body b .canSleep)
  | .shutdown => s.finishBody b
  | .logout => s.finishBody b
  | .nothing => s.finishBody b

variable (action : Action)

def startAction (watchEarly forSleep : Bool) : State :=
  let s := if watchEarly then s.installWatch none else s
  let c := s.nextId
  { s with
    nextId := c + 1
    actionStartCancellable := some c
    isInAction := some action
    entry := some c
    woken := false }.enterBody ⟨action, c, watchEarly, forSleep⟩

def upgrade : State :=
  if canUpgrade s.isInAction action then s.cancelStart else s

/-- `_doSystemAction` after the upgrade. -/
def enterAction (watchEarly forSleep : Bool) : State :=
  if s.isInAction.isSome then s.returnAction forSleep
  else if !s.sessionIsActive then s.returnAction forSleep
  else if s.actionStartCancellable.isSome then s.throw .actionStartCancellableSet
  else if s.suspended then s.throw .suspendedSet
  else if action = .nothing then s.returnAction forSleep
  else s.startAction action watchEarly forSleep

/-- `_doSystemAction(action, debugReason, watchEarly)` up to its first `await`. -/
def doSystemAction (watchEarly forSleep : Bool) : State :=
  match s.cancellingActionLock with
  | some lock =>
      { s with newActionQueued := true }.push (.queued lock action watchEarly forSleep)
  | none => (s.upgrade action).enterAction action watchEarly forSleep

/-- `_doSystemAction` after the cancelling lock it awaited is gone. -/
def resumeQueued (watchEarly forSleep : Bool) : State :=
  if !s.newActionQueued then s.returnAction forSleep
  else
    ({ s with newActionQueued := false }.upgrade action).enterAction action watchEarly forSleep

def bodyWatch : State :=
  if b.watchEarly then s else s.installWatch (some b.cancellable)

/-- Suspend or hibernate via logind: `_suspended` is set first. -/
def callLogind : State :=
  let s := s.setSuspended
  if b.action = .hibernate then s.emit (.logindHibernate b.cancellable)
  else s.emit (.logindSuspend (some b.cancellable))

/-- `showLater()` of the screen shield after the fade, when the shield was locked before it. -/
def bodyShowLater (showLater : Bool) : State :=
  if showLater then s.emit (.showLater b.cancellable) else s

/-- An entry body goes on after an `await`. `answer` is what it waited for: the answer of
`canSuspend`, the outcome of logind's call, or that of `_becomeModal` for idle-blank. -/
def resumeBody (pc : BodyPc) (answer : Bool) : State :=
  match pc with
  | .idleBlankFaded =>
      if s.isCancelled b.cancellable then s.finishBody b
      else s.push (.body b .idleBlankSlept)
  | .idleBlankSlept =>
      if s.isCancelled b.cancellable then s.finishBody b
      else
        let s := (s.bodyWatch b).emit (.activateShield b.cancellable)
        if s.env.lockEnabled && answer then s.push (.body b .idleBlankLockDelay)
        else s.finishBody b
  | .idleBlankLockDelay =>
      if s.isCancelled b.cancellable then s.finishBody b
      else (s.emit (.lock b.cancellable)).finishBody b
  | .blankFaded showLater =>
      let s := s.bodyShowLater b showLater
      if s.isCancelled b.cancellable then s.finishBody b
      else s.push (.body b .blankSlept)
  | .blankSlept =>
      if s.isCancelled b.cancellable then s.finishBody b
      else (s.bodyWatch b).finishBody b
  | .canSleep =>
      if !answer then s.finishBody b
      else if s.isCancelled b.cancellable then s.finishBody b
      else s.lockAndTurnOff b .sleepFaded
  | .sleepFaded showLater =>
      let s := s.bodyShowLater b showLater
      if s.isCancelled b.cancellable then s.finishBody b
      else ((s.bodyWatch b).callLogind b).push (.body b .sleepCalled)
  | .sleepCalled =>
      if answer then s.finishBody b
      else { s.turnOnScreen.deleteAction with suspended := false }.finishBody b
  | .forcedPainted =>
      if s.isCancelled b.cancellable then s.finishBody b
      else (s.turnOffScreen (some b.cancellable)).push (.body b .forcedFaded)
  | .forcedFaded =>
      if s.isCancelled b.cancellable then s.finishBody b
      else (s.bodyWatch b).finishBody b

/-- The `finally` handler of an entry body. -/
def resumeBodyFinally : State :=
  { s with actionStartCancellable := none }.returnAction b.forSleep

/-! ## `_prepareForSleep` -/

/-- `_prepareForSleep(true)` after its `_doSystemAction`. -/
def afterSleepAction : State :=
  match s.isInAction with
  | none => s
  | some action =>
    if !isSuspendAction action then s
    else if !s.suspended then s.throw (.notSuspended action)
    else s.syncInhibitor false true false

/-- `_prepareForSleep(aboutToSuspend)`; `ok` is the outcome of a synchronous `inhibitSync`. -/
def prepareForSleep (aboutToSuspend ok : Bool) : State :=
  if aboutToSuspend then
    let s := { s with suspendAgainTimeout := none }
    if (s.isInAction ≠ some .suspend ∧ s.isInAction ≠ some .hibernate)
        ∨ s.cancellingActionLock.isSome then
      s.doSystemAction .suspendForced false true
    else if !s.suspended then s.doSystemAction .suspendForced false true
    else s.afterSleepAction
  else
    let s := { s with
      ignoreInputAfterSuspend := true
      suspended := false
      woken := s.isInAction.isSome }
    let s := s.syncInhibitor true true ok
    let s := { s with ignoreInputTimeouts := s.ignoreInputTimeouts + 1 }
    if s.isInAction.isSome then s.maybeCancelAction .suspendWakeup else s.turnOnScreen

/-! ## The other handlers -/

/-- `_onUserActive`, called when the installed watch fires; `powerKey` tells that the event is a
press of the power key. -/
def onUserActive (powerKey : Bool) : State :=
  let s := { s with userActiveId := false }
  if s.deferredIdleBlankId then { s with deferredIdleBlankId := false }
  else if s.isInAction.isNone then s.throw .userActiveWithoutAction
  else
    let s := { s with userAlreadyIdle := false }
    if powerKey then s.push .powerKeyPress
    else s.maybeCancelAction .userActive

/-- `_onUserActive` after `_maybeCancelAction`. -/
def resumeUserActive (cancelled : Bool) : State :=
  if cancelled then s
  else if s.isInAction.isNone || s.cancellingActionLock.isSome then s
  else s.installWatch none

/-- The press branch of `powerButtonEvent`, as far as it concerns a recorded action. -/
def powerButtonPress : State :=
  if s.ignoreInputAfterSuspend then s
  else if s.isInAction.isSome then s.maybeCancelAction .powerButtonPress
  else s

def sessionIsActiveChanged (active : Bool) : State :=
  if s.sessionIsActive = active then s
  else
    let s := { s with sessionIsActive := active }
    if !s.sessionIsActive && s.isInAction.isSome then s.maybeCancelAction .sessionInactive
    else s

def isBlanked : Bool := s.isInAction == some .idleBlank || s.isInAction == some .blank

/-- The `wake-up-screen` handler after `_isInPocket`. -/
def resumeWakeUp (near : Bool) : State :=
  if near then s
  else if !s.isBlanked then s
  else { s with screenOnForNotificationTimeout := true }.turnOnScreen

/-- The suspend-again timeout's callback after `_isInPocket`. -/
def resumeSuspendAgain (ongoing : Action) (near : Bool) : State :=
  if s.isInAction ≠ some ongoing then s.throw (.suspendAgainActionChanged ongoing)
  else if !near then { s with isInAction := some .blank }
  else (s.setSuspended.emit (.logindSuspend none)).push .suspendAgainCall

/-- The `catch` of the suspend-again timeout's `suspend()`. -/
def suspendAgainFailed : State := { s.deleteAction with suspended := false }.turnOnScreen

end State

/-! ## Events -/

inductive Event where
  /-- A call of `_doSystemAction` from an idle watch, the power key's release, `suspend()` or
  `blank()`. -/
  | doSystemAction (action : Action) (watchEarly : Bool)
  | powerButtonPress
  | sessionIsActiveChanged (active : Bool)
  /-- logind's `PrepareForSleep`; `ok` is the outcome of a synchronous `inhibitSync`. -/
  | prepareForSleep (aboutToSuspend ok : Bool)
  /-- The installed user-active watch fires. -/
  | userActive (powerKey : Bool)
  | ignoreInputTimeout
  | suspendAgainTimeout
  | wakeUpScreen
  | notificationTimeout
  | deferredIdleBlankTimeout
  | loginSessionChanged (active : Bool)
  | envChanged (env : Env)
  | lightboxStopped
  | resumeScreen (i : Nat) (ok : Bool) (brightness : Nat)
  | resume (i : Nat) (answer : Bool)
  deriving DecidableEq, Repr

namespace State

variable (s : State)

/-- Whether a continuation may resume: a queued `_doSystemAction` waits for the cancelling work,
an entry body for the `_turnOffScreen` call it made. The promise queue is drained as a whole, so
a queued call goes on before another cancel can begin. -/
def isReady : Thread → Bool
  | .queued _ _ _ _ => s.cancellingActionLock.isNone
  | .body b .idleBlankFaded => !s.screen.busyFor b.cancellable
  | .body b (.blankFaded _) => !s.screen.busyFor b.cancellable
  | .body b (.sleepFaded _) => !s.screen.busyFor b.cancellable
  | .body b .forcedFaded => !s.screen.busyFor b.cancellable
  | _ => true

def resumeThread (t : Thread) (answer : Bool) : State :=
  match t with
  | .queued _ action watchEarly forSleep => s.resumeQueued action watchEarly forSleep
  | .body b pc => s.resumeBody b pc answer
  | .bodyFinally b => s.resumeBodyFinally b
  | .cancelPocket _ reason ongoing => s.resumeCancel reason ongoing answer
  | .cancelFinally _ reason returned =>
      let s := { s with cancellingActionLock := none }
      if returned then s.settleCancel reason true else s
  | .userActive cancelled => s.resumeUserActive cancelled
  | .powerKeyPress => s.powerButtonPress
  | .sleepAction => s.afterSleepAction
  | .suspendAgainPocket ongoing => s.resumeSuspendAgain ongoing answer
  | .suspendAgainCall => if answer then s else s.suspendAgainFailed
  | .wakeUpPocket => s.resumeWakeUp answer
  | .inhibit c =>
      if answer && s.inhibitCancellable == some c then { s with inhibitor := true } else s

end State

/-- One turn of the main loop. `none`: the event cannot happen in this state. -/
def step (s : State) : Event → Option State
  | .doSystemAction action watchEarly => some (s.doSystemAction action watchEarly false)
  | .powerButtonPress => some s.powerButtonPress
  | .sessionIsActiveChanged active => some (s.sessionIsActiveChanged active)
  | .prepareForSleep aboutToSuspend ok => some (s.prepareForSleep aboutToSuspend ok)
  | .userActive powerKey => if s.userActiveId then some (s.onUserActive powerKey) else none
  | .ignoreInputTimeout =>
      if s.ignoreInputTimeouts = 0 then none
      else some { s with
        ignoreInputTimeouts := s.ignoreInputTimeouts - 1
        ignoreInputAfterSuspend := false }
  | .suspendAgainTimeout =>
      s.suspendAgainTimeout.map fun ongoing =>
        { s with suspendAgainTimeout := none }.push (.suspendAgainPocket ongoing)
  | .wakeUpScreen => some (if s.isBlanked then s.push .wakeUpPocket else s)
  | .notificationTimeout =>
      if s.screenOnForNotificationTimeout then
        some { s.turnOffScreen none with screenOnForNotificationTimeout := false }
      else none
  | .deferredIdleBlankTimeout =>
      if s.deferredIdleBlankId then
        some { s.doSystemAction .idleBlank true false with deferredIdleBlankId := false }
      else none
  | .loginSessionChanged active =>
      some ({ s with loginSessionActive := active }.syncInhibitor true false false)
  | .envChanged env => some { s with env := env }
  | .lightboxStopped => s.screen.lightboxStopped.map fun screen => { s with screen := screen }
  | .resumeScreen i ok brightness =>
      (s.screen.resumeWork i ok brightness).map fun screen => { s with screen := screen }
  | .resume i answer =>
      (Runs.take s.threads i).bind fun (t, rest) =>
        if s.isReady t then some ({ s with threads := rest }.resumeThread t answer) else none

end PowerManager
