import GnomeShellMobile.Runs.Basic
import Mathlib.Data.Int.Notation

/-!
# Keyboard — showing and hiding the on-screen keyboard

`open`, `close`, the edge drag and the swipe down of `Keyboard` in `js/ui/keyboard.js`, with the
animations of the actor.

* `State`: the flags, the keyboard box, and what is called when the animation stops.
* `ease`, `animateShow`, `animateHide`, `open`, `close` and the gestures, under the words of the
  source.
* `step`: what is called, and how an animation ends.

A new animation first stops those it overwrites, and what is called then can call `close` again. How
far the keyboard is drawn, the windows that make room for it and its keys are left out.
-/

namespace Keyboard

inductive Callback where
  /-- `onComplete` of `_animateShow`. -/
  | animateShowComplete
  | animateHideComplete
  /-- `onStopped` of a swipe that ends below. -/
  | close
  /-- A swipe that ends above has none. -/
  | none
  deriving DecidableEq

structure State where
  wayland : Bool
  keyboardVisible : Bool
  keyboardRequested : Bool
  gestureInProgress : Bool
  /-- `keyboardBox` of the layout manager is shown. -/
  box : Bool
  /-- The calls of `disable_unredirect` minus those of `enable_unredirect`. -/
  unredirect : ℤ
  /-- The last argument of `setOskCompletion`. -/
  oskCompletion : Option Bool
  showIdle : Bool
  focusInExtendedKeys : Bool
  panEnabled : Bool
  panning : Bool
  panOut : Bool
  animation : List Callback
  deriving DecidableEq

namespace State

/-- The keyboard after `_init`. -/
def new (wayland : Bool) : State :=
  { wayland := wayland
    keyboardVisible := false
    keyboardRequested := false
    gestureInProgress := false
    box := false
    unredirect := 0
    oskCompletion := none
    showIdle := false
    focusInExtendedKeys := false
    panEnabled := false
    panning := false
    panOut := false
    animation := [] }

def disableUnredirect (s : State) : State := { s with unredirect := s.unredirect + 1 }

def enableUnredirect (s : State) : State := { s with unredirect := s.unredirect - 1 }

/-- An animation that overwrites others, of which none calls `close` when it is stopped. -/
def restart (s : State) (callback : Callback) : State := { s with animation := [callback] }

def animateHideWith (ease : State → Callback → State) (s : State) : State :=
  { ease s .animateHideComplete with keyboardVisible := false }

def panEndWith (ease : State → Callback → State) (s : State) : State :=
  ease { s with panning := false } (if s.panOut then .close else .none)

/-- `this._panGesture.enabled = false`, which cancels the swipe. -/
def disablePan (ease : State → Callback → State) (s : State) : State :=
  let s := { s with panEnabled := false }
  if s.panning then s.panEndWith ease else s

def closeWith (ease : State → Callback → State) (s : State) : State :=
  let s := { s with showIdle := false, keyboardRequested := false }
  if s.keyboardVisible then
    { s with oskCompletion := some false }.animateHideWith ease |>.disablePan ease
  else s

def removeTransition (s : State) : State :=
  let t := { s with animation := [] }
  if .close ∈ s.animation then t.closeWith restart else t

/-- `ease`. An animation that was started while the others were stopped goes on, with one more to
call. -/
def ease (s : State) (callback : Callback) : State :=
  let t := s.removeTransition
  { t with animation := t.animation ++ [callback] }

def animateHide (s : State) : State := s.animateHideWith ease

def close (s : State) : State := s.closeWith ease

def animateShow (s : State) : State :=
  { s.disableUnredirect with box := true, keyboardVisible := true }.ease .animateShowComplete

def «open» (s : State) : State :=
  let s := { s with showIdle := false, keyboardRequested := true }
  if s.keyboardVisible then s
  else { { s with oskCompletion := some true }.animateShow with panEnabled := true }

def animateShowComplete (s : State) : State := if s.wayland then s else { s with box := true }

def animateHideComplete (s : State) : State := { s with box := false }.enableUnredirect

def call (s : State) : Callback → State
  | .animateShowComplete => s.animateShowComplete
  | .animateHideComplete => s.animateHideComplete
  | .close => s.close
  | .none => s

def complete (s : State) : State := s.animation.foldl call { s with animation := [] }

/-- `gestureProgress` sets what is animated, so that no animation is left. -/
def gestureProgress (s : State) : State :=
  { s with gestureInProgress := true, box := true }.removeTransition

def gestureActivate (s : State) : State := { s.open with gestureInProgress := false }

def gestureCancel (s : State) : State :=
  { if s.gestureInProgress then s.animateHide else s with gestureInProgress := false }

def panBegin (s : State) : State := { s with panning := true }.removeTransition

def panUpdate (s : State) (moves panOut : Bool) : State :=
  let s := { s with panOut := panOut }
  if moves then s.removeTransition else s

def panEnd (s : State) : State := s.panEndWith ease

/-- `_onKeyFocusChanged`: the focus is a key of an extended popup, a text or something else. -/
def keyFocusChanged (s : State) (extendedKeys text : Bool) : State :=
  let ignored := extendedKeys || s.focusInExtendedKeys
  let s := { s with focusInExtendedKeys := extendedKeys }
  if ignored then s
  else if text then { s with showIdle := true }
  else s.close

end State

/-- `Clutter.InputPanelState`. -/
inductive PanelState where
  | off
  | on
  | toggle
  deriving DecidableEq

inductive Event where
  | open
  | close
  | panelState (state : PanelState)
  | keyFocus (extendedKeys text : Bool)
  | idle
  | gestureProgress
  | gestureActivate
  | gestureCancel
  | panBegin
  | panUpdate (moves panOut : Bool)
  | panEnd
  | complete
  | interrupt
  deriving DecidableEq

open State in
def step (s : State) : Event → Option State
  | .open => some s.open
  | .close => some s.close
  | .panelState .off => some s.close
  | .panelState .on => some s.open
  | .panelState .toggle => some (if s.keyboardVisible then s.close else s.open)
  | .keyFocus extendedKeys text => some (s.keyFocusChanged extendedKeys text)
  | .idle => if s.showIdle then some s.open else none
  | .gestureProgress => some s.gestureProgress
  | .gestureActivate => some s.gestureActivate
  | .gestureCancel => some s.gestureCancel
  | .panBegin => if s.panEnabled && !s.panning then some s.panBegin else none
  | .panUpdate moves panOut => if s.panning then some (s.panUpdate moves panOut) else none
  | .panEnd => if s.panning then some s.panEnd else none
  | .complete => if s.animation = [] then none else some s.complete
  | .interrupt => if s.animation = [] then none else some s.removeTransition

end Keyboard
