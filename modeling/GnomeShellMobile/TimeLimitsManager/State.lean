import GnomeShellMobile.TimeLimitsManager.History

/-!
# TimeLimitsManager — state

The fields of the `TimeLimitsManager` object, the continuations of its suspended `async`
functions, and what there is outside of it: the settings, the two clocks, logind and the history
file. A GLib source, a proxy, an inhibitor or a cancellable is a number; the sources, handlers
and inhibitors that exist are listed beside the fields that refer to them, so that one which is
no longer referred to is still seen.

Three fields are bookkeeping that the source does not have: `starts` lists the cancellables of
the starts, `cancellations` what the stops cancelled, and `updates` the calls of `_updateState`,
each newest first.
-/

namespace TimeLimitsManager

inductive TimeLimitsState where
  | disabled
  | active
  | limitReached
  deriving DecidableEq, Repr

/-- The keys of `org.gnome.desktop.screen-time-limits` that are read here. -/
structure Settings where
  historyEnabled : Bool
  dailyLimitEnabled : Bool
  dailyLimitSeconds : Nat
  deriving DecidableEq, Repr

structure Clock where
  realTimeSecs : Int
  monotonicTimeSecs : Int
  deriving DecidableEq, Repr

structure LocalTime where
  threeOClock : Int → Int
  addDays : Int → Int → Int

def LocalTime.getStartOfTodaySecs (tz : LocalTime) (nowSecs : Int) : Int × Int :=
  let startOfToday := tz.threeOClock nowSecs
  let startOfToday := if nowSecs < startOfToday then tz.addDays startOfToday (-1) else startOfToday
  (startOfToday, tz.addDays startOfToday 1)

structure Login where
  /-- `State` is `active` -/
  active : Bool := true
  idleHint : Bool := false
  preparingForSleep : Bool := false
  deriving DecidableEq, Repr

/-- The contents of the history file. An entry is `none` if it is not an object with two valid
states and a safe integer for its time. -/
inductive Contents where
  | notAnArray
  | entries (l : List (Option Transition))
  deriving DecidableEq, Repr

inductive ReadResult where
  | error
  | notFound
  | contents (c : Contents)
  deriving DecidableEq, Repr

inductive FileOp where
  | delete
  | replace (l : List Transition)
  deriving DecidableEq, Repr

/-- The continuations of the suspended functions. Those of a start carry the cancellable it
created, those of a stop the one it found, those of an operation the one it was given. -/
inductive Thread where
  /-- `_startStateMachine` while the history file is read -/
  | startRead (c : Nat)
  /-- `_startStateMachine` with the history file read -/
  | startLoad (c : Nat) (result : ReadResult)
  /-- `_ensureInhibitor` awaiting `inhibit`, called by a start or by `_onPrepareForSleep` -/
  | inhibit (start : Option Nat) (cancellable : Option Nat)
  /-- `_startStateMachine` after `_ensureInhibitor` -/
  | startInhibited (c : Nat)
  /-- `_startStateMachine` awaiting the proxy of the user -/
  | startLoginUser (c : Nat)
  /-- `_startStateMachine` after `_updateUserState` -/
  | startUpdate (c : Nat)
  /-- `_stopStateMachine` while the history file is deleted or replaced -/
  | stopFile (cancellable : Option Nat) (op : FileOp)
  /-- `_stopStateMachine` after that -/
  | stopTail (cancellable : Option Nat)
  /-- `_storeTransitions` while the history file is changed; `preparing` is given when
  `_onPrepareForSleep` awaits it -/
  | storeFile (cancellable : Option Nat) (op : FileOp) (preparing : Option Bool)
  /-- `_onPrepareForSleep` after `_updateUserState` -/
  | sleepUpdated (preparing : Bool)
  deriving DecidableEq, Repr

/-- What `_updateState` and the getter of `dailyLimitTime` go by. -/
structure Limits where
  state : TimeLimitsState
  userState : UserState
  stateTransitions : List Transition
  lastStateChangeTimeSecs : Int
  settings : Settings
  nowSecs : Int
  deriving DecidableEq, Repr

/-- The assertions of the getter of `dailyLimitTime`. -/
inductive Assertion where
  /-- `Active time unexpectedly high` -/
  | activeTimeHigh
  /-- `Daily limit reached-at time only makes sense if limits are enabled` -/
  | limitEnabled
  /-- `Daily limit reached-at unexpectedly low` -/
  | reachedAtLow
  deriving DecidableEq, Repr

/-- The getter of `dailyLimitTime`: what it returns, and the assertions that fail. -/
def Limits.dailyLimitTime (tz : LocalTime) (l : Limits) : Int × List Assertion :=
  match l.state with
  | .disabled => (0, [])
  | .active =>
      if !l.settings.dailyLimitEnabled then (0, [])
      else
        let (startOfTodaySecs, _) := tz.getStartOfTodaySecs l.nowSecs
        let activeTimeTodaySecs :=
          calculateActiveTimeTodaySecs l.nowSecs startOfTodaySecs l.stateTransitions
        let dailyLimitSecs : Int := l.settings.dailyLimitSeconds
        (if l.userState = .active then l.nowSecs + (dailyLimitSecs - activeTimeTodaySecs) else 0,
          if activeTimeTodaySecs ≤ dailyLimitSecs then [] else [.activeTimeHigh])
  | .limitReached =>
      let (startOfTodaySecs, _) := tz.getStartOfTodaySecs l.nowSecs
      let dailyLimitReachedAtSecs := calculateDailyLimitReachedAtSecs l.nowSecs
        l.settings.dailyLimitSeconds startOfTodaySecs l.stateTransitions
      (dailyLimitReachedAtSecs,
        (if l.settings.dailyLimitEnabled then [] else [.limitEnabled]) ++
          if 0 < dailyLimitReachedAtSecs then [] else [.reachedAtLow])

/-- A call of `_updateState`: what it found and what it left. -/
structure UpdateCall where
  before : Limits
  after : Limits
  deriving DecidableEq, Repr

structure State where
  settings : Settings
  clock : Clock
  login : Login := {}
  file : Option Contents := none
  state : TimeLimitsState := .disabled
  userState : UserState := .inactive
  stateTransitions : List Transition := []
  cancellable : Option Nat := none
  loginManager : Bool := false
  inhibitor : Option Nat := none
  loginUser : Option Nat := none
  lastStateChangeTimeSecs : Int := 0
  timerId : Option Nat := none
  timeChangeId : Option Nat := none
  clockOffsetSecs : Int := 0
  ignoreClockOffsetChanges : Bool := false
  /-- `freeze_notify` calls without their `thaw_notify` -/
  freezes : Int := 0
  /-- the timer sources and their timeouts -/
  timers : List (Nat × Int) := []
  timeChangeSources : List Nat := []
  inhibitors : List Nat := []
  /-- how many handlers of `prepare-for-sleep` are connected -/
  sleepHandlers : Nat := 0
  /-- the proxies of the user whose changes are listened to, once for each handler -/
  userHandlers : List Nat := []
  threads : List Thread := []
  cancelled : List Nat := []
  nextId : Nat := 0
  starts : List Nat := []
  cancellations : List (Option Nat × Nat) := []
  updates : List UpdateCall := []
  deriving DecidableEq, Repr

def State.init (settings : Settings) (clock : Clock) (login : Login) (file : Option Contents) :
    State :=
  { settings, clock, login, file }

namespace State

variable (s : State)

def push (t : Thread) : State := { s with threads := t :: s.threads }

def isCancelled (c : Option Nat) : Bool := c.any s.cancelled.contains

def limits : Limits where
  state := s.state
  userState := s.userState
  stateTransitions := s.stateTransitions
  lastStateChangeTimeSecs := s.lastStateChangeTimeSecs
  settings := s.settings
  nowSecs := s.clock.realTimeSecs

def getClockOffset : Int := s.clock.realTimeSecs - s.clock.monotonicTimeSecs

def completeFile (cancellable : Option Nat) (op : FileOp) (ok : Bool) : State :=
  if !ok || s.isCancelled cancellable then s
  else match op with
    | .delete => { s with file := none }
    | .replace l => { s with file := some (.entries (l.map some)) }

end State

end TimeLimitsManager
