import Mathlib.Logic.Function.Iterate
import GnomeShellMobile.Runs.Pool
import GnomeShellMobile.TimeLimitsManager.State

/-!
# TimeLimitsManager — the functions and their steps

The functions of `timeLimitsManager.js`, each cut at its `await`s into the part that runs at once
and the continuations that run when an answer comes. `step` lets any event happen: a setting
changes, time passes, the wall clock is set, a source or a signal fires, an awaited call is
answered. Answers come in any order; an operation takes effect at some moment between its call
and its answer.
-/

namespace TimeLimitsManager.State

variable (tz : LocalTime) (s : State)

/-! ## The limit -/

def scheduleUpdateState (timeout : Int) : State :=
  { s with
    timers := (s.nextId, timeout) :: s.timers.filter fun t => some t.1 ≠ s.timerId
    timerId := some s.nextId
    nextId := s.nextId + 1 }

/-- The end of `_updateState`, which saves the new state. -/
def saveState (newState : TimeLimitsState) : State :=
  if newState ≠ s.state then
    { s with state := newState, lastStateChangeTimeSecs := s.clock.realTimeSecs }
  else s

/-- Record a call of `_updateState` which found `before`. -/
def logUpdate (before : Limits) : State :=
  { s with updates := ⟨before, s.limits⟩ :: s.updates }

def updateState : State :=
  let nowSecs := s.clock.realTimeSecs
  let (startOfTodaySecs, startOfTomorrowSecs) := tz.getStartOfTodaySecs nowSecs
  -- A new day resets the limit.
  let newState := if s.lastStateChangeTimeSecs < startOfTodaySecs then .active else s.state
  let activeTimeTodaySecs :=
    calculateActiveTimeTodaySecs nowSecs startOfTodaySecs s.stateTransitions
  let dailyLimitSecs : Int := s.settings.dailyLimitSeconds
  let dailyLimitEnabled := s.settings.dailyLimitEnabled
  let (newState, scheduled) :=
    if dailyLimitEnabled ∧ dailyLimitSecs ≤ activeTimeTodaySecs then
      (.limitReached, s.scheduleUpdateState (startOfTomorrowSecs - nowSecs))
    else if s.userState = .active then
      (.active, if dailyLimitEnabled then
        s.scheduleUpdateState (dailyLimitSecs - activeTimeTodaySecs) else s)
    else (newState, s)
  (scheduled.saveState newState).logUpdate s.limits

/-! ## The user state -/

/-- The part of `_addTransition` that records the transition. -/
def recordTransition (oldState newState : UserState) (wallTimeSecs : Int) : State :=
  { s with
    stateTransitions := s.stateTransitions ++ [⟨oldState, newState, wallTimeSecs⟩]
    userState := newState }

def addTransition (oldState newState : UserState) (wallTimeSecs : Int)
    (recalculateState : Bool := true) : State :=
  if recalculateState ∧ s.state ≠ .disabled then
    (s.recordTransition oldState newState wallTimeSecs).updateState tz
  else s.recordTransition oldState newState wallTimeSecs

/-- `_calculateUserStateFromLogind`; `none` when it reads a property of `null`. -/
def calculateUserStateFromLogind : Option UserState :=
  if s.loginUser.isNone then none
  else if !s.login.active || s.login.idleHint then some .inactive
  else if !s.loginManager then none
  else some (if s.login.preparingForSleep then .inactive else .active)

/-- The part of `_storeTransitions` that trims and filters the transitions. -/
def cleanTransitions : State :=
  { s with stateTransitions :=
      TimeLimitsManager.storeTransitions s.clock.realTimeSecs s.stateTransitions }

def storeOp : FileOp :=
  if s.stateTransitions.isEmpty then .delete else .replace s.stateTransitions

def storeTransitions (preparing : Option Bool) : State :=
  s.cleanTransitions.push (.storeFile s.cancellable s.cleanTransitions.storeOp preparing)

/-- `_updateUserState` up to the store, and whether there is something to store; `none` when it
throws. -/
def updateUserState : Option (State × Bool) :=
  s.calculateUserStateFromLogind.map fun newState =>
    if s.userState = newState then (s, false)
    else (s.addTransition tz s.userState newState s.clock.realTimeSecs, true)

/-- The handler of `g-properties-changed`. -/
def onPropertiesChanged : State :=
  match s.updateUserState tz with
  | none => s
  | some (s', false) => s'
  | some (s', true) => s'.storeTransitions none

/-! ## Loading -/

/-- The loop of `_loadTransitions`, and whether it went through. -/
def loadEntries (nowSecs : Int) : List (Option Transition) → Int → State → State × Bool
  | [], _, s => (s, true)
  | none :: _, _, s => (s, false)
  | some e :: rest, previousWallTimeSecs, s =>
      if e.oldState = e.newState ∨ e.wallTimeSecs < previousWallTimeSecs then (s, false)
      else if filterOldTransition e rest.isEmpty nowSecs then
        loadEntries nowSecs rest e.wallTimeSecs
          (s.addTransition tz e.oldState e.newState e.wallTimeSecs rest.isEmpty)
      else loadEntries nowSecs rest previousWallTimeSecs s

/-- `_loadTransitions` with the file read, and whether it returned without an error. -/
def loadTransitions : ReadResult → State × Bool
  | .error => (s, false)
  | .notFound => (s, true)
  | .contents .notAnArray => (s, false)
  | .contents (.entries l) =>
      let loaded := loadEntries tz s.clock.realTimeSecs l 0 { s with freezes := s.freezes + 1 }
      ({ loaded.1 with freezes := loaded.1.freezes - 1 }, loaded.2)

/-! ## The inhibitor -/

/-- `_ensureInhibitor` up to its answer; `start` is the start that awaits it. -/
def ensureInhibitor (start : Option Nat) : State :=
  if s.inhibitor.isSome then
    match start with
    | some c => s.push (.startInhibited c)
    | none => s
  else if s.loginManager then s.push (.inhibit start s.cancellable)
  else s

def takeInhibitor (cancellable : Option Nat) (ok : Bool) : State :=
  if !ok || s.isCancelled cancellable then s
  else { s with
    inhibitors := s.nextId :: s.inhibitors
    inhibitor := some s.nextId
    nextId := s.nextId + 1 }

def releaseInhibitor : State :=
  { s with
    inhibitors := s.inhibitors.filter fun i => some i ≠ s.inhibitor
    inhibitor := none }

variable (preparingForSleep : Bool)

/-- The part of `_onPrepareForSleep` that comes before `_updateUserState`. -/
def comeBack : State :=
  if preparingForSleep then s
  else { s.ensureInhibitor none with
    clockOffsetSecs := s.getClockOffset
    ignoreClockOffsetChanges := false }

def onPrepareForSleep : State :=
  match (s.comeBack preparingForSleep).updateUserState tz with
  | none => (s.comeBack preparingForSleep).push (.sleepUpdated preparingForSleep)
  | some (s', false) => s'.push (.sleepUpdated preparingForSleep)
  | some (s', true) => s'.storeTransitions (some preparingForSleep)

def sleepUpdated : State :=
  if preparingForSleep then { s with ignoreClockOffsetChanges := true }.releaseInhibitor else s

/-! ## Starting -/

/-- `_startStateMachine` up to the reading of the file. -/
def startStateMachine : State :=
  { s with
    userState := .active
    stateTransitions := []
    state := .active
    cancellable := some s.nextId
    freezes := s.freezes + 1
    nextId := s.nextId + 1
    starts := s.nextId :: s.starts }.push (.startRead s.nextId)

variable (c : Nat)

def readFile (ok : Bool) : ReadResult :=
  if !ok || s.isCancelled (some c) then .error
  else match s.file with
    | none => .notFound
    | some contents => .contents contents

def addStartup : State :=
  if s.stateTransitions = [] ∨ s.userState ≠ .active then
    s.addTransition tz .inactive .active s.clock.realTimeSecs
  else s

/-- Listening to changes of the clock; `listens` tells that the system allows it. -/
def listenToClock (listens : Bool) : State :=
  if listens then
    { s with
      clockOffsetSecs := s.getClockOffset
      timeChangeSources := s.nextId :: s.timeChangeSources
      timeChangeId := some s.nextId
      nextId := s.nextId + 1 }
  else { s with clockOffsetSecs := s.getClockOffset, timeChangeId := none }

/-- `_startStateMachine` with the file read. -/
def startLoad (result : ReadResult) (listens : Bool) : State :=
  { ((s.loadTransitions tz result).1.addStartup tz).listenToClock listens with
    loginManager := true }.ensureInhibitor (some c)

/-- `_startStateMachine` after `_ensureInhibitor`; it throws when `_loginManager` is `null`. -/
def startInhibited : State :=
  if s.loginManager then
    { s with sleepHandlers := s.sleepHandlers + 1 }.push (.startLoginUser c)
  else s

def listenToUser (proxy : Option Nat) : State :=
  { s with loginUser := proxy, userHandlers := proxy.toList ++ s.userHandlers }

/-- `_startStateMachine` with the proxy of the user; it throws when there is none. -/
def startLoginUser (proxy : Option Nat) : State :=
  match (s.listenToUser proxy).updateUserState tz with
  | none => s.listenToUser proxy
  | some (s', _) => s'.push (.startUpdate c)

/-- The end of `_startStateMachine`. -/
def startUpdate : State := { s.updateState tz with freezes := s.freezes - 1 }

/-! ## Stopping -/

/-- The part of `_stopStateMachine` that lets go of the sources, handlers and the inhibitor. -/
def disconnect : State :=
  { s with
    timeChangeSources := s.timeChangeSources.filter fun i => some i ≠ s.timeChangeId
    timeChangeId := none
    clockOffsetSecs := 0
    timers := s.timers.filter fun t => some t.1 ≠ s.timerId
    timerId := none
    userHandlers := s.userHandlers.filter fun p => some p ≠ s.loginUser
    loginUser := none
    inhibitors := s.inhibitors.filter fun i => some i ≠ s.inhibitor
    inhibitor := none
    sleepHandlers := if s.loginManager then 0 else s.sleepHandlers
    loginManager := false
    state := .disabled
    lastStateChangeTimeSecs := 0 }

def addShutdown : State :=
  if s.userState ≠ .inactive then s.addTransition tz .active .inactive s.clock.realTimeSecs else s

/-- `_stopStateMachine` up to its file operation. -/
def stopStateMachine : State :=
  if s.settings.historyEnabled then
    let s := (s.disconnect.addShutdown tz).cleanTransitions
    s.push (.stopFile s.cancellable s.storeOp)
  else s.disconnect.push (.stopFile s.cancellable .delete)

/-- The end of `_stopStateMachine`; `own` is the cancellable there was at its begin. -/
def stopTail (own : Option Nat) : State :=
  { s with
    cancelled := s.cancellable.toList ++ s.cancelled
    cancellations := (s.cancellable.toList.map fun c => (own, c)) ++ s.cancellations
    cancellable := none }

def updateSettings : State :=
  if !s.settings.historyEnabled then
    if s.state ≠ .disabled then s.stopStateMachine tz else s
  else if s.state = .disabled then s.startStateMachine
  else s.updateState tz

/-! ## The clock -/

def adjustAllTimes (offsetSecs : Int) : State :=
  { s with
    stateTransitions := s.stateTransitions.map fun e =>
      { e with wallTimeSecs := e.wallTimeSecs + offsetSecs }
    lastStateChangeTimeSecs :=
      if s.lastStateChangeTimeSecs ≠ 0 then s.lastStateChangeTimeSecs + offsetSecs
      else s.lastStateChangeTimeSecs
    clockOffsetSecs := s.clockOffsetSecs + offsetSecs }

/-- The callback of `timeChangeNotify`. -/
def onTimeChange : State :=
  if s.ignoreClockOffsetChanges ∨ s.getClockOffset = s.clockOffsetSecs then s
  else
    ({ s.adjustAllTimes (s.getClockOffset - s.clockOffsetSecs) with
      clockOffsetSecs := s.getClockOffset }.storeTransitions none).updateState tz

def onTimer (id : Nat) : State :=
  { s with timers := s.timers.filter fun t => t.1 ≠ id, timerId := none }.updateState tz

/-! ## Steps -/

/-- The continuation `t`, taken out of the pool, goes on with its answer. An answer is `none` if
it is an error; for the proxy of the user it is the proxy. -/
def resume (t : Thread) (answer : Option Nat) : State :=
  match t with
  | .startRead c => s.push (.startLoad c (s.readFile c answer.isSome))
  | .startLoad c result => s.startLoad tz c result answer.isSome
  | .inhibit (some c) cancellable =>
      (s.takeInhibitor cancellable answer.isSome).push (.startInhibited c)
  | .inhibit none cancellable => s.takeInhibitor cancellable answer.isSome
  | .startInhibited c => s.startInhibited c
  | .startLoginUser c => s.startLoginUser tz c answer
  | .startUpdate _ => s.startUpdate tz
  | .stopFile cancellable op =>
      (s.completeFile cancellable op answer.isSome).push (.stopTail cancellable)
  | .stopTail own => s.stopTail own
  | .storeFile cancellable op (some preparing) =>
      (s.completeFile cancellable op answer.isSome).push (.sleepUpdated preparing)
  | .storeFile cancellable op none => s.completeFile cancellable op answer.isSome
  | .sleepUpdated preparing => s.sleepUpdated preparing

end State

inductive Event where
  | changeSettings (settings : Settings)
  | shutdown
  | pass (secs : Nat)
  | sleep (secs : Nat)
  | setClock (offsetSecs : Int)
  | timeChange (source : Nat)
  | timer (id : Nat)
  | propertiesChanged (active idleHint : Bool)
  | prepareForSleep (preparing : Bool)
  /-- the continuation at position `i` is answered -/
  | resume (i : Nat) (answer : Option Nat)
  deriving DecidableEq, Repr

namespace State

def step (tz : LocalTime) (s : State) : Event → Option State
  | .changeSettings settings => some ({ s with settings }.updateSettings tz)
  | .shutdown => some (s.stopStateMachine tz)
  | .pass secs =>
      some { s with clock := ⟨s.clock.realTimeSecs + secs, s.clock.monotonicTimeSecs + secs⟩ }
  | .sleep secs =>
      some { s with clock := ⟨s.clock.realTimeSecs + secs, s.clock.monotonicTimeSecs⟩ }
  | .setClock offsetSecs =>
      some { s with clock := ⟨s.clock.realTimeSecs + offsetSecs, s.clock.monotonicTimeSecs⟩ }
  | .timeChange source =>
      if source ∈ s.timeChangeSources then some (s.onTimeChange tz) else none
  | .timer id => if id ∈ s.timers.map Prod.fst then some (s.onTimer tz id) else none
  | .propertiesChanged active idleHint =>
      some (Nat.iterate (onPropertiesChanged tz) s.userHandlers.length
        { s with login := { s.login with active, idleHint } })
  | .prepareForSleep preparing =>
      some (Nat.iterate (fun s => s.onPrepareForSleep tz preparing) s.sleepHandlers
        { s with login := { s.login with preparingForSleep := preparing } })
  | .resume i answer =>
      (Runs.take s.threads i).map fun p => { s with threads := p.2 }.resume tz p.1 answer

def start (tz : LocalTime) (settings : Settings) (clock : Clock) (login : Login)
    (file : Option Contents) : State :=
  (State.init settings clock login file).updateSettings tz

end State

end TimeLimitsManager
