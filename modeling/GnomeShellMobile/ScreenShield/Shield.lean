import Mathlib.Data.List.Basic

/-!
# ScreenShield — the functions and their steps

`lock`, `activate`, `showLater` and `deactivate` of `screenShield.js`. Unlocking is spread over
the wait for the messages of the prompt, the slide-up animation of the shield and its completion;
`step` lets each of these happen at any time. A function that may throw says whether it returned.

`held` is bookkeeping that the source does not have: `lock()` has set the shield locked, and no
`deactivate()` has been called since.
-/

namespace ScreenShield

/-- `MessageTray.State`. -/
inductive LockScreenState where
  | hidden
  | showing
  | shown
  | hiding
  deriving DecidableEq, Repr

inductive Slide where
  /-- of `activate` -/
  | down
  /-- of `_continueDeactivate`, with the `_isGreeter` of that moment -/
  | up (greeter : Bool)
  deriving DecidableEq, Repr

structure Env where
  /-- `disable-lock-screen` -/
  disableLock : Bool := false
  /-- the password mode of the account is `NONE` -/
  passwordNone : Bool := false
  sessionIsGreeter : Bool := false
  unlockDialog : Bool := true
  deriving DecidableEq, Repr

structure State where
  env : Env := {}
  lockScreenState : LockScreenState := .hidden
  isModal : Bool := false
  isGreeter : Bool := false
  isActive : Bool := false
  isLocked : Bool := false
  activationTime : Nat := 0
  /-- `_dialog`, and whether it has a grab of its own -/
  dialog : Option Bool := none
  /-- `unlock-dialog` is the current session mode -/
  unlockMode : Bool := false
  slide : Option Slide := none
  /-- the `deactivate` calls that wait for the messages of the prompt, with their `animate` -/
  waiting : List Bool := []
  held : Bool := false
  deriving DecidableEq, Repr

/-- Answers of the compositor to the calls of one event: whether the shield and the dialog get
their grabs, and whether an animation of the shield's actor is run. -/
structure Answers where
  grabs : Bool := true
  opens : Bool := true
  animates : Bool := true
  deriving DecidableEq, Repr

namespace State

variable (s : State)

/-! ## Animations -/

def lockScreenShown : State × Bool :=
  if s.dialog.isSome then ({ s with lockScreenState := .shown, isActive := true }, true)
  else ({ s with lockScreenState := .shown }, false)

/-- `_completeDeactivate`. What waits for the messages of the destroyed dialog never goes on. -/
def completeDeactivate : State :=
  { s with
    dialog := none
    waiting := []
    activationTime := 0
    isActive := false
    isLocked := false }

def slideFinished : Slide → State
  | .down => s.lockScreenShown.1
  | .up true => { s with lockScreenState := .hidden, activationTime := 0, isActive := false }
  | .up false => { s with lockScreenState := .hidden }.completeDeactivate

/-- The running animation is removed: only `onStopped` is called. -/
def removeTransitions : State :=
  match s.slide with
  | some .down => { s with slide := none }.lockScreenShown.1
  | _ => { s with slide := none }

/-- `actor.ease`: it replaces the running animation, and without one of its own it is finished at
once. -/
def ease (slide : Slide) (animated : Bool) : State :=
  if animated then { s.removeTransitions with slide := some slide }
  else s.removeTransitions.slideFinished slide

/-! ## Unlocking -/

/-- `_continueDeactivate`; it throws when the shield is hidden, before it does anything. -/
def continueDeactivate (animated : Bool) : Option State :=
  if s.lockScreenState = .hidden then none
  else
    let s := { s with lockScreenState := .hiding, unlockMode := false }
    if s.isGreeter then some (s.ease (.up true) animated)
    else
      some ({ s with dialog := s.dialog.map fun _ => false, isModal := false }.ease (.up false)
        animated)

/-- `deactivate`; `pending` tells that the prompt has messages to show, and `animates` that the
animation is run. -/
def deactivate (animate pending animates : Bool) : State × Bool :=
  let s := { s with held := false }
  if s.dialog.isSome && pending then ({ s with waiting := animate :: s.waiting }, true)
  else match s.continueDeactivate (animate && animates) with
    | some s' => (s', true)
    | none => (s, false)

/-! ## Locking -/

def becomeModal (grabs : Bool) : State × Bool :=
  if s.isModal then (s, true) else ({ s with isModal := grabs }, grabs)

/-- `_ensureUnlockDialog` without a dialog it could open: it returns `false`, or throws. -/
def giveUpDialog (animates : Bool) : State × Option Bool :=
  ((s.deactivate true false animates).1,
    if (s.deactivate true false animates).2 then some false else none)

/-- `_ensureUnlockDialog`: what it returns, or `none` when it throws. -/
def ensureUnlockDialog (w : Answers) : State × Option Bool :=
  if s.dialog.isSome then (s, some true)
  else if !s.env.unlockDialog then s.giveUpDialog w.animates
  else if w.opens then ({ s with dialog := some true }, some true)
  else { s with dialog := some false }.giveUpDialog w.animates

/-- The session mode is switched to `unlock-dialog`, unless it is that of the greeter. -/
def pushUnlockMode : State :=
  if s.unlockMode then s
  else
    { s with
      isGreeter := s.env.sessionIsGreeter
      unlockMode := !s.env.sessionIsGreeter }

/-- The part of `activate` that shows the shield. -/
def showShield (animated : Bool) : State :=
  { s.pushUnlockMode with lockScreenState := .showing }.removeTransitions.ease .down animated

/-- `activate`, and whether it returned. -/
def activate (animate showLater : Bool) (now : Nat) (w : Answers) : State × Bool :=
  let s := if s.activationTime = 0 then { s with activationTime := now } else s
  match s.ensureUnlockDialog w with
  | (s', none) => (s', false)
  | (s', some false) => (s', true)
  | (s', some true) => (if showLater then s' else s'.showShield (animate && w.animates), true)

/-- What `lock` sets the shield to after it has activated it. -/
def setsLocked : Bool := s.isGreeter || !s.env.passwordNone

def lock (animate showLater : Bool) (now : Nat) (w : Answers) : State :=
  if s.env.disableLock then s
  else match s.becomeModal w.grabs with
    | (s', false) => s'
    | (s', true) =>
        match s'.activate animate showLater now w with
        | (s'', false) => s''
        | (s'', true) =>
            { s'' with isLocked := s''.setsLocked, held := s''.held || s''.setsLocked }

def showLater : State := s.pushUnlockMode.lockScreenShown.1

/-- `showDialog`; without the grab it ends the program. -/
def showDialog (w : Answers) : Option State :=
  match s.becomeModal w.grabs with
  | (_, false) => none
  | (s', true) =>
      some ({ s' with
        isGreeter := s'.env.sessionIsGreeter
        isLocked := true }.ensureUnlockDialog w).1

def activateDialog (pending : Bool) (w : Answers) : State :=
  if s.isLocked then (s.ensureUnlockDialog w).1 else (s.deactivate true pending w.animates).1

end State

inductive Event where
  | lock (animate showLater : Bool) (now : Nat) (w : Answers)
  | activate (animate showLater : Bool) (now : Nat) (w : Answers)
  | showLater
  | deactivate (animate pending : Bool) (w : Answers)
  | becomeModal (grabs : Bool)
  | showDialog (w : Answers)
  | activateDialog (pending : Bool) (w : Answers)
  /-- the `deactivate` call at position `i` has waited long enough -/
  | noMoreMessages (i : Nat) (w : Answers)
  | slideFinished
  | slideInterrupted
  | changeSettings (disableLock passwordNone : Bool)
  deriving DecidableEq, Repr

namespace State

def step (s : State) : Event → Option State
  | .lock animate showLater now w => some (s.lock animate showLater now w)
  | .activate animate showLater now w => some (s.activate animate showLater now w).1
  | .showLater => some s.showLater
  | .deactivate animate pending w => some (s.deactivate animate pending w.animates).1
  | .becomeModal grabs => some (s.becomeModal grabs).1
  | .showDialog w => s.showDialog w
  | .activateDialog pending w => some (s.activateDialog pending w)
  | .noMoreMessages i w =>
      s.waiting[i]?.map fun animate =>
        let s := { s with waiting := s.waiting.eraseIdx i }
        (s.continueDeactivate (animate && w.animates)).getD s
  | .slideFinished => s.slide.map fun slide => { s with slide := none }.slideFinished slide
  | .slideInterrupted => if s.slide.isSome then some s.removeTransitions else none
  | .changeSettings disableLock passwordNone =>
      some { s with env := { s.env with disableLock, passwordNone } }

def init (env : Env) : State := { env }

end State

end ScreenShield
