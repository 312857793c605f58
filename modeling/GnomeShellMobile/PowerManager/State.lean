import GnomeShellMobile.PowerManager.Screen

/-!
# PowerManager — state

The fields of the `PowerManager` object, the continuations of its suspended `async` functions,
and the elementary updates the functions of `Step.lean` are made of. A field the source deletes
is `none` or `false`; a set timer or watch is `true`, or `some` of the value its callback
captured.

Three fields are bookkeeping that the source does not have: `entry` names the entry body of the
recorded action by its cancellable, `woken` remembers a wake-up that left the action recorded,
and `log` lists what the functions did to the outside, newest first.
-/

namespace PowerManager

/-- The actions `_doSystemAction` is called with. -/
inductive Action where
  | dim
  | idleBlank
  | blank
  | suspend
  | suspendForced
  | hibernate
  | shutdown
  | logout
  | nothing
  deriving DecidableEq, Repr

/-- The reasons `_maybeCancelAction` is called with. -/
inductive CancelReason where
  | powerButtonPress
  | sessionInactive
  | suspendWakeup
  | userActive
  deriving DecidableEq, Repr

/-- What an entry body holds in its local variables: the action it enters, its cancellable,
whether the watch was installed early, and whether `_prepareForSleep(true)` awaits it. -/
structure Body where
  action : Action
  cancellable : Nat
  watchEarly : Bool
  forSleep : Bool
  deriving DecidableEq, Repr

/-- The `await`s of the entry bodies. Suspend and hibernate go through the same three. -/
inductive BodyPc where
  /-- idle-blank after `_turnOffScreen` -/
  | idleBlankFaded
  /-- idle-blank after `asyncSleep(350)` -/
  | idleBlankSlept
  /-- idle-blank after `asyncSleep(lockTimeoutMs)` -/
  | idleBlankLockDelay
  /-- blank after `_turnOffScreen`; `showLater` when the shield was locked before it -/
  | blankFaded (showLater : Bool)
  /-- blank after `asyncSleep(350)` -/
  | blankSlept
  /-- suspend after `canSuspend()`, hibernate after `canHibernate()` -/
  | canSleep
  /-- suspend and hibernate after `_turnOffScreen` -/
  | sleepFaded (showLater : Bool)
  /-- suspend after logind's `suspend()`, hibernate after `hibernate()` -/
  | sleepCalled
  /-- suspend-forced after the stage update -/
  | forcedPainted
  /-- suspend-forced after `_turnOffScreen` -/
  | forcedFaded
  deriving DecidableEq, Repr

inductive Thread where
  /-- `_doSystemAction` awaiting the cancelling lock -/
  | queued (lock : Nat) (action : Action) (watchEarly forSleep : Bool)
  | body (b : Body) (pc : BodyPc)
  /-- the `finally` handler of an entry body that has returned -/
  | bodyFinally (b : Body)
  /-- `_maybeCancelAction` awaiting `_isInPocket` -/
  | cancelPocket (lock : Nat) (reason : CancelReason) (ongoing : Action)
  /-- the `finally` handler of a `_maybeCancelAction` that had nothing to await -/
  | cancelFinally (lock : Nat) (reason : CancelReason) (returned : Bool)
  /-- `_onUserActive` after its `_maybeCancelAction` returned -/
  | userActive (cancelled : Bool)
  | powerKeyPress
  /-- `_prepareForSleep(true)` after its `_doSystemAction` returned -/
  | sleepAction
  /-- the suspend-again timeout awaiting `_isInPocket` -/
  | suspendAgainPocket (ongoing : Action)
  /-- the suspend-again timeout's `suspend()` call -/
  | suspendAgainCall
  /-- the `wake-up-screen` handler awaiting `_isInPocket` -/
  | wakeUpPocket
  /-- `_syncInhibitor` awaiting `inhibit` -/
  | inhibit (cancellable : Nat)
  deriving DecidableEq, Repr

/-- The entry body a continuation goes on with; its `finally` handler is not part of it. -/
def Thread.running : Thread → Option Nat
  | .body b _ => some b.cancellable
  | _ => none

inductive Error where
  /-- `_maybeCancelAction called without being in action` -/
  | cancelWithoutAction
  /-- `Woke up with reason 'suspend-wakeup' but no ongoing suspend/suspend-forced/hibernate` -/
  | wakeupWithoutSuspend (ongoing : Action)
  /-- `this._suspendAgainTimeout set and suspend-wakeup happened` -/
  | wakeupWithSuspendAgain
  /-- `there must still be a user active watch when deferring blank` -/
  | deferWithoutWatch
  /-- `Called _doSystemAction() with this._actionStartCancellable set` -/
  | actionStartCancellableSet
  /-- `Called _doSystemAction() with this._suspended set` -/
  | suspendedSet
  /-- `this._suspended is not set but we're in the correct action` -/
  | notSuspended (action : Action)
  /-- `user active watch fired but were not in an action` -/
  | userActiveWithoutAction
  /-- `Suspend again timeout finished, but action is no longer …` -/
  | suspendAgainActionChanged (ongoing : Action)
  deriving DecidableEq, Repr

/-- What the functions do to the outside. `entry` is the entry body that does it. -/
inductive Effect where
  | lock (entry : Nat)
  | showLater (entry : Nat)
  | activateShield (entry : Nat)
  | deactivateShield
  | userActiveWatch (entry : Option Nat)
  | logindSuspend (entry : Option Nat)
  | logindHibernate (entry : Nat)
  | revoked (entry : Nat)
  | error (e : Error)
  deriving DecidableEq, Repr

/-- Settings and the screen shield, read by the functions and changed by others. -/
structure Env where
  lockEnabled : Bool := true
  shieldActive : Bool := false
  shieldLocked : Bool := false
  deriving DecidableEq, Repr

structure State where
  isInAction : Option Action := none
  suspended : Bool := false
  cancellingActionLock : Option Nat := none
  newActionQueued : Bool := false
  actionStartCancellable : Option Nat := none
  userActiveId : Bool := false
  /-- `_userAlreadyIdle`; the source only ever deletes it. -/
  userAlreadyIdle : Bool := false
  deferredIdleBlankId : Bool := false
  /-- `_suspendAgainTimeout`, with the action its callback captured. -/
  suspendAgainTimeout : Option Action := none
  screenOnForNotificationTimeout : Bool := false
  sessionIsActive : Bool := true
  ignoreInputAfterSuspend : Bool := false
  /-- pending 500 ms timeouts that end `_ignoreInputAfterSuspend` -/
  ignoreInputTimeouts : Nat := 0
  loginSessionActive : Bool := true
  inhibited : Option Bool := some true
  inhibitor : Bool := true
  inhibitCancellable : Option Nat := none
  env : Env := {}
  screen : Screen := {}
  threads : List Thread := []
  cancelled : List Nat := []
  nextId : Nat := 0
  entry : Option Nat := none
  woken : Bool := false
  log : List Effect := []
  deriving DecidableEq, Repr

def State.init : State := {}

namespace State

variable (s : State)

def push (t : Thread) : State := { s with threads := t :: s.threads }

def emit (e : Effect) : State := { s with log := e :: s.log }

def throw (e : Error) : State := s.emit (.error e)

def isCancelled (c : Nat) : Bool := s.cancelled.contains c

def turnOffScreen (owner : Option Nat) : State :=
  { s with screen := s.screen.turnOffScreen owner }

def turnOnScreen : State := { s with screen := s.screen.turnOnScreen }

def installWatch (entry : Option Nat) : State :=
  if s.userActiveId then s
  else { s with userActiveId := true, log := .userActiveWatch entry :: s.log }

def deleteAction : State := { s with isInAction := none, entry := none, woken := false }

def setSuspended : State := { s with suspended := true, woken := false }

/-- `this._actionStartCancellable?.cancel()`, then both action variables are deleted. -/
def cancelStart : State :=
  { s with
    cancelled := s.actionStartCancellable.toList ++ s.cancelled
    actionStartCancellable := none
    log := s.entry.toList.map Effect.revoked ++ s.log }.deleteAction

/-- The entry body with cancellable `c` has called logind's `suspend()` or `hibernate()`. -/
def CalledLogind (c : Nat) : Prop :=
  .logindSuspend (some c) ∈ s.log ∨ .logindHibernate c ∈ s.log
deriving Decidable

end State

end PowerManager
