import GnomeShellMobile.Dict.Basic
import GnomeShellMobile.InputMethod.Method

/-!
# Keyboard — the levels of the on-screen keyboard

The pages of keys of `Keyboard` in `js/ui/keyboard.js`: which one is shown, and whether it is latched.

* `KeyboardModel`: what is read from a file of a layout, as far as the levels need it.
* `State`: the pages that were built of it, the current one, and what decides the next one.
* the functions under the words of the source; `groups` and `keyboardModel` are the head of
  `_updateLayout`.
* `step`: what the user, the client and the settings do.

The files of the layouts are a parameter. Drawing, long presses and modifiers are left out.
-/

namespace Keyboard.Levels

open InputMethod (ContentHint ContentPurpose)

structure SwitchKey where
  level : String
  /-- Its icon is `osk-shift-symbolic`. -/
  shiftIcon : Bool

structure LevelModel where
  level : String
  switchKeys : List SwitchKey

structure KeyboardModel where
  levels : List LevelModel
  switch : ∀ l ∈ levels, ∀ key ∈ l.switchKeys, key.level ∈ levels.map LevelModel.level

structure ShiftKey where
  latched : Bool
  iconName : String

structure Page where
  switches : List String
  shiftKeys : List ShiftKey

/-- The page of a level, with `_addRowKeys`. -/
def LevelModel.page (l : LevelModel) : Page :=
  { switches := l.switchKeys.map SwitchKey.level
    shiftKeys := (l.switchKeys.filter SwitchKey.shiftIcon).map fun _ =>
      { latched := false, iconName := "osk-shift-symbolic" } }

/-- `layers` of `_updateLayout`. -/
def KeyboardModel.layers (model : KeyboardModel) : Dict String Page :=
  model.levels.foldl (fun layers l => layers.set l.level l.page) Dict.empty

structure State where
  layers : Dict String Page
  currentPage : Option String
  latched : Bool
  contentHint : List ContentHint
  /-- A handler of `surrounding-text-set` is connected. -/
  surroundingTextId : Bool
  levelSwitchPressTime : Option ℕ
  isPhone : Bool
  /-- The levels that `_setActiveLevel` was called with, and whether the layout had them. -/
  calls : List (String × Bool)
  /-- A level was left while it was latched, and not by the user. -/
  left : Bool
  /-- The hints were last changed to lowercase, without a latch, and the user did not switch the
  level since. -/
  lowercased : Bool

namespace State

variable (s : State)

def setCurrentLevelLatched (latched : Bool) : State :=
  match s.currentPage with
  | none => s
  | some level =>
    match s.layers.get? level with
    | none => s
    | some page =>
      { s with layers := s.layers.set level { page with shiftKeys := page.shiftKeys.map fun _ =>
        { latched := latched
          iconName := if latched then "osk-caps-lock-symbolic" else "osk-shift-symbolic" } } }

def setLatched (latched : Bool) : State :=
  { s with latched := latched }.setCurrentLevelLatched latched

/-- `_setActiveLevel`. It throws where the layout lacks the level, and on phones where it lacks the
default one, and by then the page is set. -/
def setActiveLevel (activeLevel : String) : Except State State :=
  let known := decide (s.layers.has activeLevel)
  let currentPage := if known then some activeLevel else none
  let s := { s with calls := (activeLevel, known) :: s.calls }
  if s.currentPage = currentPage then .ok s
  else
    let s := if s.currentPage = none then s else s.setLatched false
    let s := { s with currentPage := currentPage }
    if !known || s.isPhone && !decide (s.layers.has "default") then .error s else .ok s

def settle : Except State State → State
  | .error s => s
  | .ok s => s

def updateLevelFromHints (userInputHappened : Bool) : State :=
  if s.latched then s
  else if .lowercase ∈ s.contentHint then settle (s.setActiveLevel "default")
  else if ¬ s.layers.has "shift" then s
  else if .uppercase ∈ s.contentHint then settle (s.setActiveLevel "shift")
  else if .autoCapitalization ∈ s.contentHint ∨ .titlecase ∈ s.contentHint then
    { s with surroundingTextId := true }
  else if userInputHappened ∧ s.currentPage = some "shift" then settle (s.setActiveLevel "default")
  else s

def onContentHintsChanged (contentHint : List ContentHint) : State :=
  { s with contentHint := contentHint }.updateLevelFromHints false

/-- The white space and line ends that `trimEnd` takes off. -/
def isWhite (c : Char) : Bool :=
  c.val ∈ [0x9, 0xa, 0xb, 0xc, 0xd, 0x20, 0xa0, 0x1680, 0x2028, 0x2029, 0x202f, 0x205f, 0x3000, 0xfeff]
    || 0x2000 ≤ c.val && c.val ≤ 0x200a

/-- The hints ask for a capital after `beforeCursor`, or for none. -/
def capitalizes (contentHint : List ContentHint) (beforeCursor : List Char) : Option Bool :=
  if .titlecase ∈ contentHint then some (beforeCursor.getLast? = some ' ')
  else if .autoCapitalization ∈ contentHint then
    some ((beforeCursor.reverse.dropWhile isWhite).head? = some '.')
  else none

def isFirst (text : Option String) (cursor : ℕ) : Bool := text.getD "" = "" || cursor = 0

def setCapital : Option Bool → Except State State
  | some true => s.setActiveLevel "shift"
  | some false => s.setActiveLevel "default"
  | none => .ok s

def disconnect : Except State State → State
  | .error s => s
  | .ok s => { s with surroundingTextId := false }

def surroundingTextSet (text : Option String) (cursor : ℕ) : State :=
  if isFirst text cursor then settle (s.setActiveLevel "shift")
  else disconnect (s.setCapital (capitalizes s.contentHint ((text.getD "").toList.take cursor)))

def switchedLately (timeNow : ℕ) : Bool :=
  match s.levelSwitchPressTime with
  | none => false
  | some time => timeNow < time + 400000

/-- A key with the action `levelSwitch` is pressed. -/
def levelSwitch (level : String) (timeNow : ℕ) : State :=
  if level = "shift" then
    settle ({ s with levelSwitchPressTime := some timeNow }.setActiveLevel level)
  else if level = "default" ∧ s.switchedLately timeNow then s.setLatched true
  else settle (s.setActiveLevel level)

end State

def groups (groupName : String) (purpose : ContentPurpose) (isPhone : Bool) : List String :=
  let groups := ["us", groupName]
  let groups := match purpose with
    | .digits => groups ++ ["digits"]
    | .number => groups ++ ["number"]
    | .phone => groups ++ ["phone"]
    | .email => if isPhone then groups else groups ++ ["email"]
    | .url => if isPhone then groups else groups ++ ["url"]
    | .terminal => groups.map (· ++ "-extended")
    | _ => groups
  let groups := if isPhone then groups.map (· ++ "-mobile") else groups
  groups.reverse

def keyboardModel (files : String → Option KeyboardModel) (groupName : String)
    (purpose : ContentPurpose) (isPhone : Bool) : Option KeyboardModel :=
  (groups groupName purpose isPhone).findSome? files

namespace State

/-- `_updateLayout` with the model it found. The old layout is destroyed, and the current page with
it. -/
def updateLayout (s : State) : Option KeyboardModel → State
  | none => s
  | some model => { s with layers := model.layers, currentPage := none }

def updateKeys (files : String → Option KeyboardModel) (s : State) (groupName : String)
    (purpose : ContentPurpose) (isPhone : Bool) : State :=
  let model := keyboardModel files groupName purpose isPhone
  settle ((updateLayout { s with isPhone := isPhone } model).setActiveLevel "default")

/-- The keyboard before `_setupKeyboard` builds the first layout. -/
def empty : State :=
  { layers := Dict.empty
    currentPage := none
    latched := false
    contentHint := []
    surroundingTextId := false
    levelSwitchPressTime := none
    isPhone := false
    calls := []
    left := false
    lowercased := false }

def new (files : String → Option KeyboardModel) (groupName : String) (purpose : ContentPurpose)
    (isPhone : Bool) : State :=
  empty.updateKeys files groupName purpose isPhone

/-- `t` comes of `s` without the user switching the level. -/
def automatic (s t : State) : State :=
  { t with left := s.left || s.latched && t.currentPage ≠ s.currentPage }

end State

inductive Event where
  /-- A key that leads to `level` is pressed. -/
  | levelSwitch (level : String) (timeNow : ℕ)
  /-- A key commits, deletes, sends its keyval or hides the keyboard, or the window changes. -/
  | userInput
  | contentHints (contentHint : List ContentHint)
  | updateKeys (groupName : String) (purpose : ContentPurpose) (isPhone : Bool)
  | surroundingText (text : Option String) (cursor : ℕ)

open State in
def step (files : String → Option KeyboardModel) (s : State) : Event → Option State
  | .levelSwitch level timeNow =>
    if s.layers.values.any fun page => level ∈ page.switches then
      some { s.levelSwitch level timeNow with lowercased := false }
    else none
  | .userInput => some (automatic s (s.updateLevelFromHints true))
  | .contentHints contentHint =>
    some { automatic s (s.onContentHintsChanged contentHint) with
      lowercased := !s.latched && .lowercase ∈ contentHint }
  | .updateKeys groupName purpose isPhone => some (s.updateKeys files groupName purpose isPhone)
  | .surroundingText text cursor =>
    if s.surroundingTextId then some (automatic s (s.surroundingTextSet text cursor)) else none

end Keyboard.Levels
