import GnomeShellMobile.Runs.Pool

/-!
# PowerManager — turning the screen off and on

`_turnOffScreen`, `_turnOnScreen`, `_fadeOut` and `_fadeIn` share a lightbox, two guards
(`_fadingOut`, `_fadingIn`), the display's `PowerSaveMode`, the backlight LED and the sensor
daemon's adaptive-backlight inhibition. Each of them awaits in the middle; what is left of a
suspended call is an item of `ScreenWork`, and any item may be the next one to resume.

Some fields are bookkeeping that the source does not have: `asksOn` tells which of the two
functions was called last, `turnsOn` which of them was called last and not dropped by its guard,
and the calls that take something from others or give it back are counted.
-/

namespace PowerManager

/-- The lightbox transition that is running, by the code that started it. `owner` is the entry
body on whose behalf `_turnOffScreen` was called (`none` for the notification timer). -/
inductive Fade where
  | fadeOut (owner : Option Nat)
  | fadeIn
  | dim
  | undim
  deriving DecidableEq, Repr

/-- The suspended calls of the screen functions, by the `await` they wait at. -/
inductive ScreenWork where
  /-- `_fadeOut` after its `lightOn`, which was finished or stopped. -/
  | fadeOutSettled (owner : Option Nat) (finished : Bool)
  /-- `_turnOffScreen` after its `_fadeOut`. -/
  | fadeOutReturned (owner : Option Nat) (finished : Bool)
  /-- `_turnOffScreen` at `InhibitAdaptiveBacklightAsync`. -/
  | inhibit (owner : Option Nat)
  /-- `_turnOnScreen` at `UninhibitAdaptiveBacklightAsync`. -/
  | uninhibit
  /-- `_fadeIn` after its `lightOff`. -/
  | fadeInSettled
  deriving DecidableEq, Repr

def ScreenWork.owner : ScreenWork → Option Nat
  | .fadeOutSettled owner _ => owner
  | .fadeOutReturned owner _ => owner
  | .inhibit owner => owner
  | .uninhibit => none
  | .fadeInSettled => none

structure Screen where
  fadingOut : Bool := false
  fadingIn : Bool := false
  /-- `_fadeInTimeout`; the source removes it but never sets it. -/
  fadeInTimeout : Bool := false
  cursorInvisible : Bool := false
  /-- Calls of `inhibit_cursor_visibility` less those of `uninhibit_cursor_visibility`. -/
  cursorInhibits : Int := 0
  lightbox : Option Fade := none
  work : List ScreenWork := []
  adaptiveBacklightInhibited : Bool := false
  adaptiveInhibits : Int := 0
  /-- `_savedBacklight`, with `0` for unset: the source only tests it for `> 0`. -/
  savedBacklight : Nat := 0
  ledWritten : Option Nat := none
  /-- Last `PowerSaveMode` written. -/
  powerSaveMode : Nat := 0
  /-- `_findBacklightLed` found an LED; the answer is cached by the source. -/
  backlightLed : Bool := true
  /-- `_loginSession` has been obtained. -/
  loginSession : Bool := true
  asksOn : Bool := true
  turnsOn : Bool := true
  deriving DecidableEq, Repr

namespace Screen

variable (s : Screen)

def push (w : ScreenWork) : Screen := { s with work := w :: s.work }

/-- `remove_all_transitions()` of the lightbox: a stopped `lightOn` or `lightOff` rejects. -/
def removeAllTransitions : Screen :=
  match s.lightbox with
  | some (.fadeOut owner) => { s with lightbox := none }.push (.fadeOutSettled owner false)
  | some .fadeIn => { s with lightbox := none }.push .fadeInSettled
  | some .dim => { s with lightbox := none }
  | some .undim => { s with lightbox := none }
  | none => s

/-- `lightOn` and `lightOff` both stop the running transition and start their own. -/
def easeLightbox (f : Fade) : Screen := { s.removeAllTransitions with lightbox := some f }

def lightboxStopped : Option Screen :=
  match s.lightbox with
  | some (.fadeOut owner) => some ({ s with lightbox := none }.push (.fadeOutSettled owner true))
  | some .fadeIn => some ({ s with lightbox := none }.push .fadeInSettled)
  | some .dim => some { s with lightbox := none }
  | some .undim => some { s with lightbox := none }
  | none => none

def fadeOut (owner : Option Nat) : Screen :=
  { s with
    fadeInTimeout := false
    fadingOut := true
    cursorInvisible := true
    cursorInhibits :=
      if s.cursorInvisible then s.cursorInhibits else s.cursorInhibits + 1 }.easeLightbox
    (.fadeOut owner)

def fadeIn : Screen :=
  if s.fadeInTimeout || s.fadingIn then s
  else
    { s with
      fadingIn := true
      cursorInvisible := false
      cursorInhibits := s.cursorInhibits - 1 }.easeLightbox .fadeIn

/-- `_turnOffScreen` up to its first `await`. -/
def turnOffScreen (owner : Option Nat) : Screen :=
  let s := { s with asksOn := false }
  if s.fadingOut then s else { s with turnsOn := false }.removeAllTransitions.fadeOut owner

/-- The rest of `_turnOffScreen` after the inhibition: save the LED's level `brightness`, as
`_readBacklight` returns it, and turn the LED off. -/
def turnOffLed (brightness : Nat) : Screen :=
  if s.backlightLed && s.loginSession then
    { s with
      savedBacklight := if 0 < brightness then brightness else s.savedBacklight
      ledWritten := some 0 }
  else s

def turnOnRest : Screen :=
  let s :=
    if s.backlightLed && s.loginSession && decide (0 < s.savedBacklight) then
      { s with ledWritten := some s.savedBacklight, savedBacklight := 0 }
    else s
  { s with powerSaveMode := 0 }.fadeIn

/-- `_turnOnScreen` up to its first `await`. -/
def turnOnScreen : Screen :=
  let s := { s with asksOn := true }
  if s.fadeInTimeout || s.fadingIn then s
  else
    let s := { s with turnsOn := true }.removeAllTransitions
    if s.adaptiveBacklightInhibited then
      { s with adaptiveBacklightInhibited := false }.push .uninhibit
    else s.turnOnRest

/-- Resume an item of screen work. `ok` is the answer of the sensor daemon it waited for and
`brightness` what `_readBacklight` returns if the item goes on to read it. -/
def resume (w : ScreenWork) (ok : Bool) (brightness : Nat) : Screen :=
  match w with
  | .fadeOutSettled owner finished =>
      { s with fadingOut := false }.push (.fadeOutReturned owner finished)
  | .fadeOutReturned owner finished =>
      if finished then
        let s := { s with powerSaveMode := 3 }
        if s.adaptiveBacklightInhibited then s.turnOffLed brightness
        else s.push (.inhibit owner)
      else s
  | .inhibit _ =>
      if ok then
        { s with
          adaptiveBacklightInhibited := true
          adaptiveInhibits := s.adaptiveInhibits + 1 }.turnOffLed brightness
      else s.turnOffLed brightness
  | .uninhibit =>
      if ok then { s with adaptiveInhibits := s.adaptiveInhibits - 1 }.turnOnRest
      else { s with adaptiveBacklightInhibited := true }.turnOnRest
  | .fadeInSettled => { s with fadingIn := false }

def resumeWork (i : Nat) (ok : Bool) (brightness : Nat) : Option Screen :=
  (Runs.take s.work i).map fun (w, rest) => { s with work := rest }.resume w ok brightness

/-- Something of the `_turnOffScreen` call made for entry body `entry` is still to be done. -/
def busyFor (entry : Nat) : Bool :=
  s.lightbox == some (.fadeOut (some entry)) || s.work.any fun w => w.owner == some entry

def dim : Screen :=
  { s with cursorInvisible := true, cursorInhibits := s.cursorInhibits + 1 }.easeLightbox .dim

def undim : Screen :=
  { s with cursorInvisible := false, cursorInhibits := s.cursorInhibits - 1 }.easeLightbox .undim

end Screen

end PowerManager
