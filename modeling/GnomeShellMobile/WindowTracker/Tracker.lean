import GnomeShellMobile.Dict.Basic
import GnomeShellMobile.Runs.Basic

/-!
# WindowTracker — the applications of the windows

`ShellWindowTracker`, which maps each window to an application, and the `ShellApp`s, each with a
list of its windows. What the tracker asks of a `MetaWindow` and of the `ShellAppSystem` is data
here. An application of the app system has a `.desktop` file; an application that is made for a
window has a number of its own, in the order of creation.

A `ShellApp` has a running state if and only if its list is not empty.
-/

namespace WindowTracker

abbrev WindowId := Nat

inductive AppId where
  | desktop (n : Nat)
  | windowBacked (n : Nat)
  deriving DecidableEq, Repr

structure Traits where
  sandboxedAppId : Option String
  startupId : Option String
  pid : Int
  isRemote : Bool
  /-- its type is `META_WINDOW_NORMAL` -/
  isNormal : Bool
  isOverrideRedirect : Bool
  group : List WindowId

structure Window extends Traits where
  wmClassInstance : Option String
  wmClass : Option String
  gtkApplicationId : Option String
  isMapped : Bool
  isSkipTaskbar : Bool

/-- What the windows are transient for. `chain w` starts with the window that `w` is transient for
and goes on with the chain of that one; there are no loops. -/
structure Transients where
  chain : WindowId → List WindowId
  tail : ∀ w p ps, chain w = p :: ps → chain p = ps

/-- What the tracker asks of the `ShellAppSystem` and the startup notifications. -/
structure AppSystem where
  appId : Nat → String
  lookupApp : String → Option Nat
  lookupStartupWmclass : String → Option Nat
  lookupDesktopWmclass : String → Option Nat
  startupSequences : List (String × Option Nat)
  /-- the order of `shell_app_compare`, in which running applications are looked at -/
  sortRunning : List AppId → List AppId
  mem_sortRunning : ∀ l a, a ∈ sortRunning l ↔ a ∈ l

inductive AppState where
  | stopped
  | starting
  | running
  deriving DecidableEq, Repr

structure App where
  /-- `running_state->windows` -/
  windows : List WindowId
  /-- `running_state->interesting_windows`, a `guint` -/
  interestingWindows : UInt32
  state : AppState
  deriving DecidableEq

/-- The fields after `shell_app_init`. -/
def App.init : App := ⟨[], 0, .stopped⟩

structure State where
  window : WindowId → Window
  transients : Transients
  appSystem : AppSystem
  created : List WindowId
  managed : List WindowId
  windowToApp : Dict WindowId AppId
  apps : Dict AppId App
  /-- `running_apps` of the `ShellAppSystem` -/
  runningApps : List AppId
  /-- the number of the next application that is made for a window -/
  nextApp : Nat

namespace State

def new (window : WindowId → Window) (transients : Transients) (appSystem : AppSystem) : State where
  window := window
  transients := transients
  appSystem := appSystem
  created := []
  managed := []
  windowToApp := .empty
  apps := .empty
  runningApps := []
  nextApp := 0

variable (s : State)

variable (a : AppId)

def app : App := (s.apps.get? a).getD .init

def setApp (app : App) : State := { s with apps := s.apps.set a app }

variable (w : WindowId)

def setWindow (info : Window) : State :=
  { s with window := fun v => if v = w then info else s.window v }

/-! ## The applications -/

/-- `_shell_app_system_notify_app_state_changed` -/
def notifyAppStateChanged : AppState → State
  | .running =>
    { s with runningApps := if a ∈ s.runningApps then s.runningApps else s.runningApps ++ [a] }
  | .starting => s
  | .stopped => { s with runningApps := s.runningApps.erase a }

def stateTransition (state : AppState) : State :=
  if (s.app a).state = state then s
  else if (s.app a).state = .running ∧ state = .starting then s
  else (s.setApp a { s.app a with state := state }).notifyAppStateChanged a state

def syncRunningState : State :=
  if (s.app a).state = .starting then s
  else if (s.app a).interestingWindows = 0 then s.stateTransition a .stopped
  else s.stateTransition a .running

def interesting : Bool :=
  (s.window w).isMapped && !(s.window w).isSkipTaskbar

def addWindow (w : WindowId) : State :=
  if w ∈ (s.app a).windows then s
  else
    (s.setApp a { s.app a with
      windows := w :: (s.app a).windows
      interestingWindows :=
        (s.app a).interestingWindows + if s.interesting w then 1 else 0 }).syncRunningState a

def dropRunningState : State :=
  if (s.app a).windows = [] then s.setApp a { s.app a with interestingWindows := 0 } else s

def removeWindow (w : WindowId) : State :=
  if w ∈ (s.app a).windows then
    ((s.setApp a { s.app a with
      windows := (s.app a).windows.erase w
      interestingWindows :=
        (s.app a).interestingWindows - if s.interesting w then 1 else 0 }).syncRunningState
          a).dropRunningState a
  else s

def newForWindow : State × AppId :=
  ({ s with nextApp := s.nextApp + 1 }.addWindow (.windowBacked s.nextApp) w,
    .windowBacked s.nextApp)

def handleStartupSequence (completed : Bool) : State :=
  if completed then
    if (s.app a).windows = [] then s.stateTransition a .stopped else s.stateTransition a .running
  else if (s.app a).state = .stopped then s.stateTransition a .starting
  else s

/-- The handlers of `notify::is-mapped` and `notify::skip-taskbar` of an application that lists the
window: one more of its windows is interesting, or one fewer, or as many as before. -/
def countWindow (more : Option Bool) (a : AppId) : State :=
  if w ∈ (s.app a).windows then
    (s.setApp a { s.app a with
      interestingWindows :=
        match more with
        | some true => (s.app a).interestingWindows + 1
        | some false => (s.app a).interestingWindows - 1
        | none => (s.app a).interestingWindows }).syncRunningState a
  else s

def countWindows (more : Option Bool) : State :=
  s.apps.keys.foldl (fun s a => s.countWindow w more a) s

/-! ## The application for a window -/

variable (info : Window)

/-- `check_app_id_prefix`, with the prefix that `get_app_from_window_wmclass` makes of the
sandboxed app id -/
def checkAppId (n : Nat) : Bool :=
  match info.sandboxedAppId with
  | none => true
  | some id => (id ++ ".").toList.isPrefixOf (s.appSystem.appId n).toList

/-- `get_app_from_window_wmclass`: the instance part comes before the class, and `StartupWMClass`
before the names of the `.desktop` files. -/
def getAppFromWindowWmclass : Option Nat :=
  [info.wmClassInstance.bind s.appSystem.lookupStartupWmclass,
    info.wmClass.bind s.appSystem.lookupStartupWmclass,
    info.wmClassInstance.bind s.appSystem.lookupDesktopWmclass,
    info.wmClass.bind s.appSystem.lookupDesktopWmclass].findSome? fun app =>
      app.filter (s.checkAppId info)

def getAppFromId (id : String) : Option Nat := s.appSystem.lookupApp (id ++ ".desktop")

def getAppFromSandboxedAppId : Option Nat :=
  info.sandboxedAppId.bind s.getAppFromId

def getAppFromGapplicationId : Option Nat :=
  info.gtkApplicationId.bind s.getAppFromId

/-- `shell_app_get_pids`: no process id below 1 counts, and no override-redirect window. -/
def getPids : List Int :=
  (((s.app a).windows.filter fun w => !(s.window w).isOverrideRedirect).map fun w =>
    (s.window w).pid).filter fun pid => 1 ≤ pid

/-- `get_app_from_window_pid`, with `shell_window_tracker_get_app_from_pid`, for a window that is
not remote -/
def getAppFromWindowPid : Option AppId :=
  if info.pid < 1 then none
  else (s.appSystem.sortRunning s.runningApps).find? fun a => info.pid ∈ s.getPids a

/-- The match through startup-notification in `get_app_for_window` -/
def getAppFromStartup : Option Nat :=
  info.startupId.bind fun id =>
    s.appSystem.startupSequences.findSome? fun sequence =>
      if sequence.1 = id then sequence.2 else none

def getAppFromWindowGroup : Option AppId :=
  info.group.findSome? fun v => if (s.window v).isNormal then s.windowToApp.get? v else none

/-- What `get_app_for_window` finds for a window that is not transient, before its last resort. -/
def matchWindow : Option AppId :=
  -- we may know about this window already
  if ((s.window w).isNormal || (s.window w).isRemote) && (s.windowToApp.get? w).isSome then
    s.windowToApp.get? w
  else if (s.window w).isRemote then none
  else
    ((s.getAppFromWindowWmclass (s.window w)).map AppId.desktop).or <|
    ((s.getAppFromSandboxedAppId (s.window w)).map AppId.desktop).or <|
    ((s.getAppFromGapplicationId (s.window w)).map AppId.desktop).or <|
    (s.getAppFromWindowPid (s.window w)).or <|
    ((s.getAppFromStartup (s.window w)).map AppId.desktop).or <|
    s.getAppFromWindowGroup (s.window w)

/-- `get_app_for_window`. A transient window has the application of the window that it is transient
for; the last resort is an application made for that window. -/
def getAppForWindow (s : State) (w : WindowId) : List WindowId → State × AppId
  | [] =>
    match s.matchWindow w with
    | some a => (s, a)
    | none => s.newForWindow w
  | p :: ps => s.getAppForWindow p ps

/-! ## The tracker -/

/-- `track_window` with the application that was found. -/
def associate (a : AppId) : State :=
  { s with windowToApp := s.windowToApp.set w a }.addWindow a w

def trackWindow : State :=
  (s.getAppForWindow w (s.transients.chain w)).1.associate w
    (s.getAppForWindow w (s.transients.chain w)).2

def disassociateWindow : State :=
  match s.windowToApp.get? w with
  | none => s
  | some a => { s with windowToApp := s.windowToApp.erase w }.removeWindow a w

/-- `tracked_window_changed`, called by the handlers of a window that is tracked -/
def trackedWindowChanged : State :=
  if s.windowToApp.has w then (s.disassociateWindow w).trackWindow w else s

/-- `on_window_created`, or a window of `load_initial_windows` -/
def onWindowCreated : State :=
  { s with created := w :: s.created, managed := w :: s.managed }.trackWindow w

/-- The window is unmanaged, and `on_window_unmanaged` is called if it is tracked. -/
def onWindowUnmanaged : State :=
  { s with managed := s.managed.filter (· ≠ w) }.disassociateWindow w

def onShutdown : State := s.windowToApp.keys.foldl disassociateWindow s

/-- `shell_app_dispose`, and the end of the application. -/
def dispose : State :=
  { s with apps := s.apps.erase a, runningApps := s.runningApps.erase a }

end State

/-! ## The system -/

inductive Event where
  | created (w : WindowId)
  | unmanaged (w : WindowId)
  | wmClassChanged (w : WindowId) (wmClassInstance wmClass : Option String)
  | gtkApplicationIdChanged (w : WindowId) (id : Option String)
  /-- `retrack_window` of the `ShellAppSystem`: `notify::wm-class` is emitted -/
  | retrack (w : WindowId)
  | traitsChanged (w : WindowId) (traits : Traits)
  | isMappedChanged (w : WindowId) (isMapped : Bool)
  | isSkipTaskbarChanged (w : WindowId) (isSkipTaskbar : Bool)
  | transientsChanged (transients : Transients)
  | appSystemChanged (appSystem : AppSystem)
  | startupSequence (n : Nat) (completed : Bool)
  | disposed (a : AppId)
  | shutdown

def step (s : State) : Event → Option State
  | .created w => if w ∈ s.created then none else some (s.onWindowCreated w)
  | .unmanaged w => if w ∈ s.managed then some (s.onWindowUnmanaged w) else none
  | .wmClassChanged w i c =>
    some ((s.setWindow w { s.window w with
      wmClassInstance := i
      wmClass := c }).trackedWindowChanged w)
  | .gtkApplicationIdChanged w id =>
    some ((s.setWindow w { s.window w with gtkApplicationId := id }).trackedWindowChanged w)
  | .retrack w => some (s.trackedWindowChanged w)
  | .traitsChanged w traits => some (s.setWindow w { s.window w with toTraits := traits })
  | .isMappedChanged w b =>
    if (s.window w).isMapped = b then none
    else
      some ((s.setWindow w { s.window w with isMapped := b }).countWindows w
        (if (s.window w).isSkipTaskbar then none else some b))
  | .isSkipTaskbarChanged w b =>
    if (s.window w).isSkipTaskbar = b then none
    else
      some ((s.setWindow w { s.window w with isSkipTaskbar := b }).countWindows w
        (if (s.window w).isMapped then some (!b) else none))
  | .transientsChanged t => some { s with transients := t }
  | .appSystemChanged appSystem => some { s with appSystem := appSystem }
  | .startupSequence n completed => some (s.handleStartupSequence (.desktop n) completed)
  | .disposed a =>
    if a ∈ s.windowToApp.values ∨ a ∈ s.runningApps then none else some (s.dispose a)
  | .shutdown => some s.onShutdown

end WindowTracker
