import Mathlib.Data.Rat.Floor
import GnomeShellMobile.Runs.Basic

/-!
# BreakManager — the state machine of the break reminders

The `BreakManager` object with what it is told by the idle monitor, the clock and the settings.
A break type that is enabled has an entry in `_breakTypeSettings`, in
`_breakTypeSettingsChangedId` and in `_breakLastEnd`; the three maps are changed together, so
they are one list here, in the order of insertion (the order in which the loops go).

Times are the seconds since the Epoch, with the fractions that the real clock has. A clock that
is set back is a later event with a smaller time.
-/

namespace BreakManager

inductive BreakType where
  | eyesight
  | movement
  deriving DecidableEq, Repr

def BreakType.name : BreakType → String
  | .eyesight => "eyesight"
  | .movement => "movement"

def supportedBreakTypes : List BreakType := [.eyesight, .movement]

def minBreakLengthSeconds : ℚ := 10

inductive IdleState where
  | active
  | idle
  deriving DecidableEq, Repr

inductive BreakState where
  | disabled
  | active
  | idle
  | inBreak
  | breakDue
  deriving DecidableEq, Repr

/-- The keys of `org.gnome.desktop.break-reminders.<type>` that the state machine reads. -/
structure BreakSettings where
  durationSeconds : Nat
  intervalSeconds : Nat
  delaySeconds : Nat
  deriving DecidableEq, Repr

/-- What the settings hold: the key `selected-breaks` and the child settings of each type. -/
structure Settings where
  selectedBreaks : List String
  breakSettings : BreakType → BreakSettings

abbrev RealTime := {t : ℚ // 0 < t}

structure Break where
  type : BreakType
  lastEnd : ℚ
  deriving DecidableEq, Repr

inductive Signal where
  | notifyState
  | notifyNextBreakDueTime
  | notifyLastBreakEndTime
  | breakDue
  | breakFinished
  | takeBreak
  deriving DecidableEq, Repr

structure State where
  settings : Settings
  /-- `_breakTypeSettings`, `_breakTypeSettingsChangedId` and `_breakLastEnd` -/
  breaks : List Break
  state : BreakState
  currentBreakType : Option BreakType
  currentBreakStartTime : ℚ
  idleState : IdleState
  idleStartTime : ℚ
  idleWatch : Bool
  /-- `_activeWatchId !== 0` -/
  activeWatch : Bool
  /-- the seconds that the timer of `_timerId` was set for -/
  timer : Option Int
  signals : List Signal

namespace State

/-- The fields as the constructor sets them, before it calls `_updateSettings`. -/
def new (settings : Settings) : State where
  settings := settings
  breaks := []
  state := .disabled
  currentBreakType := none
  currentBreakStartTime := 0
  idleState := .active
  idleStartTime := 0
  idleWatch := false
  activeWatch := false
  timer := none
  signals := []

variable (s : State)

def Enabled (t : BreakType) : Prop := t ∈ s.breaks.map Break.type
deriving Decidable

/-- `get_uint('duration-seconds')` of a break type -/
def duration (t : BreakType) : Nat := (s.settings.breakSettings t).durationSeconds

def wouldBeDueAt (b : Break) : ℚ :=
  b.lastEnd + (s.settings.breakSettings b.type).intervalSeconds

def notify (g : Signal) : State := { s with signals := s.signals ++ [g] }

/-! ## The next break -/

/-- The variables of the loop of `getNextBreakDue`. -/
structure NextDue where
  maxDuration : Nat
  maxDurationType : Option BreakType
  nextDueTime : ℚ
  deriving DecidableEq, Repr

/-- The body of the loop of `getNextBreakDue`. -/
def nextDueBody (fromTime : ℚ) (acc : NextDue) (b : Break) : NextDue :=
  if s.wouldBeDueAt b ≤ fromTime then
    if acc.maxDuration = 0 ∨ acc.maxDuration < s.duration b.type then
      ⟨s.duration b.type, some b.type, s.wouldBeDueAt b⟩
    else { acc with nextDueTime := s.wouldBeDueAt b }
  -- this break type is not due now, but when is it due?
  else if acc.nextDueTime = 0 ∨ s.wouldBeDueAt b < acc.nextDueTime then
    { acc with nextDueTime := s.wouldBeDueAt b, maxDurationType := some b.type }
  else acc

def getNextBreakDue (fromTime : ℚ) : Option BreakType × ℚ :=
  let next := s.breaks.foldl (s.nextDueBody fromTime) ⟨0, none, 0⟩
  (next.maxDurationType, next.nextDueTime)

/-! ## The state -/

/-- `_scheduleUpdateState`: a timer that is set already is replaced. -/
def scheduleUpdateState (timeout : ℚ) : State := { s with timer := some ⌈timeout⌉ }

/-- The end of the idle branch of `_updateState`. -/
def setIdleBranchState (newState : BreakState) (dueBreakType : Option BreakType)
    (dueBreakStartTime : ℚ) : State :=
  if s.state = newState then s
  else
    { s with
      state := newState
      currentBreakType := dueBreakType
      currentBreakStartTime := dueBreakStartTime }.notify .notifyState

variable (currentTime : ℚ)

def updateIdle : State :=
  match s.getNextBreakDue currentTime with
  | (some dueBreakType, nextDueTime) =>
    if nextDueTime ≤ currentTime then
      -- has the break been finished?
      if nextDueTime + s.duration dueBreakType ≤ currentTime then
        (if s.state = .inBreak then s.notify .breakFinished else s).setIdleBranchState .idle
          (some dueBreakType) 0
      else
        (s.scheduleUpdateState
          (nextDueTime + s.duration dueBreakType - currentTime)).setIdleBranchState .inBreak
            (some dueBreakType) nextDueTime
    else if nextDueTime ≠ 0 then
      (s.scheduleUpdateState (nextDueTime - currentTime)).setIdleBranchState .idle
        (some dueBreakType) 0
    else s.setIdleBranchState .idle (some dueBreakType) 0
  | (none, nextDueTime) =>
    if nextDueTime ≠ 0 then
      (s.scheduleUpdateState (nextDueTime - currentTime)).setIdleBranchState .idle none 0
    else s.setIdleBranchState .idle none 0

def resetBreaks : List Break :=
  s.breaks.map fun b =>
    if (s.duration b.type : ℚ) ≤ currentTime - s.idleStartTime then { b with lastEnd := currentTime }
    else b

def creditIdleTime : State :=
  if 0 < s.idleStartTime then
    ({ s with breaks := s.resetBreaks currentTime, idleStartTime := 0 }.notify
      .notifyNextBreakDueTime).notify .notifyLastBreakEndTime
  else { s with idleStartTime := 0 }

/-- The end of the active branch of `_updateState` when no break is due. -/
def setActiveState : State :=
  if s.state = .active then s
  else
    { s with
      state := .active
      currentBreakType := none
      currentBreakStartTime := 0 }.notify .notifyState

/-- `_updateState` when the user is active, with the idle time credited. -/
def announceBreak : State :=
  match s.getNextBreakDue currentTime with
  | (dueBreakType, nextDueTime) =>
    if dueBreakType ≠ none ∧ nextDueTime ≤ currentTime then
      -- notify that a break is due if this has not been done already
      if s.state = .active then
        ({ s with
          state := .breakDue
          currentBreakType := dueBreakType
          currentBreakStartTime := nextDueTime }.notify .notifyState).notify .breakDue
      else s
    else if nextDueTime ≠ 0 then
      -- a timer for when the next break is due
      (s.scheduleUpdateState (nextDueTime - currentTime)).setActiveState
    else s.setActiveState

def updateState : State :=
  match s.idleState with
  | .idle => s.updateIdle currentTime
  | .active => (s.creditIdleTime currentTime).announceBreak currentTime

/-! ## The handlers

Each handler that calls `_updateState` does so at its end; what it does before is a definition
of its own. -/

/-- The body of the loop of `_updateSettings`. -/
def loadBreakType (t : BreakType) : State :=
  if t.name ∈ s.settings.selectedBreaks ∧ ¬ s.Enabled t then
    -- enabling a previously disabled break
    { s with breaks := s.breaks ++ [⟨t, currentTime⟩] }
  else if t.name ∉ s.settings.selectedBreaks ∧ s.Enabled t then
    -- disabling a previously enabled break
    { s with breaks := s.breaks.filter fun b => b.type ≠ t }
  else s

/-- `_updateSettings` up to its last branch. -/
def loadSettings : State :=
  (supportedBreakTypes.foldl (fun s t => s.loadBreakType currentTime t) s).notify
    .notifyNextBreakDueTime

/-- `_startStateMachine` before it calls `_updateState` -/
def startStateMachine : State :=
  { s with
    idleWatch := true
    state := .active
    currentBreakType := none
    currentBreakStartTime := 0
    idleState := .active
    idleStartTime := 0 }

def stopStateMachine : State :=
  { s with
    idleWatch := false
    activeWatch := false
    timer := none
    breaks := []
    state := .disabled
    currentBreakType := none
    currentBreakStartTime := 0
    idleState := .active
    idleStartTime := 0 }.notify .notifyState

/-- `_onIdleWatch` before it calls `_updateState`. The idle watch has waited for
`MIN_BREAK_LENGTH_SECONDS` already. -/
def idleWatchFired : State :=
  { s with
    activeWatch := true
    idleState := .idle
    idleStartTime := currentTime - minBreakLengthSeconds }

/-- `_onUserActiveWatch` before it calls `_updateState` -/
def userActiveWatchFired : State :=
  { s with activeWatch := false, idleState := .active }

/-- The last ends of the break types that are due, changed by `f`. -/
def mapDue (f : Break → ℚ) : State :=
  { s with
    breaks := s.breaks.map fun b =>
      if s.wouldBeDueAt b ≤ currentTime then { b with lastEnd := f b } else b }

/-- `delayBreak` before it calls `_updateState` -/
def delayDue : State :=
  ((s.mapDue currentTime fun b =>
    b.lastEnd + (s.settings.breakSettings b.type).delaySeconds).notify
      .notifyNextBreakDueTime).notify .notifyLastBreakEndTime

/-- `skipBreak` before it calls `_updateState` -/
def skipDue : State :=
  ((s.mapDue currentTime fun _ => currentTime).notify
    .notifyNextBreakDueTime).notify .notifyLastBreakEndTime

end State

/-! ## The system -/

inductive Event where
  | write (settings : Settings)
  /-- `_updateSettings`, called by the constructor and for the signal `changed` of
  `org.gnome.desktop.break-reminders`; `_startStateMachine` reads the clock again -/
  | updateSettings (now startNow : RealTime)
  | breakSettingsChanged (t : BreakType) (now : RealTime)
  | onIdleWatch (now : RealTime)
  | onUserActiveWatch (now : RealTime)
  /-- the timer of `_scheduleUpdateState` -/
  | timer (now : RealTime)
  | delayBreak (now : RealTime)
  | skipBreak (now : RealTime)
  | takeBreak

/-- What handling an event comes to: `_updateState` is called in a state and with a time, or it
is not called. -/
inductive Handled where
  | call (s : State) (currentTime : ℚ)
  | done (s : State)

def Handled.result : Handled → State
  | .call s currentTime => s.updateState currentTime
  | .done s => s

def handle (s : State) : Event → Option Handled
  | .write settings => some (.done { s with settings := settings })
  | .updateSettings now startNow =>
    if s.settings.selectedBreaks = [] then some (.done s.stopStateMachine)
    else if s.state = .disabled then
      some (.call (s.loadSettings now).startStateMachine startNow)
    else some (.call (s.loadSettings now) now)
  | .breakSettingsChanged t now => if s.Enabled t then some (.call s now) else none
  | .onIdleWatch now => if s.idleWatch then some (.call (s.idleWatchFired now) now) else none
  | .onUserActiveWatch now =>
    if s.activeWatch then some (.call s.userActiveWatchFired now) else none
  | .timer now => if s.timer.isSome then some (.call { s with timer := none } now) else none
  | .delayBreak now =>
    if s.state = .disabled then some (.done s) else some (.call (s.delayDue now) now)
  | .skipBreak now =>
    if s.state = .disabled then some (.done s) else some (.call (s.skipDue now) now)
  | .takeBreak => some (.done (s.notify .takeBreak))

def step (s : State) (e : Event) : Option State := (handle s e).map Handled.result

end BreakManager
