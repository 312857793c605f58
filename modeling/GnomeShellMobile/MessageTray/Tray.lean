import Mathlib.Data.List.Sort
import GnomeShellMobile.Runs.Basic

/-!
# MessageTray — the queue of the notifications and their banner

The `MessageTray` object with what it is told and what it looks up: the presence, the session
mode, the screen shield, the monitor, the pointer, the notifications and the policies of their
sources. `_notification` and `_banner` are set together and cleared together, so the banner
carries its notification here.

A transition of the banner completes later, by an event, or at once, when animations are
disabled or its duration is zero. What it then does, ends with a call of `_updateState`, which
the functions below are given as the parameter `upd`: inside of `_updateState` that call returns
at its first check and does nothing.

A function that throws leaves the state that it had made, `Except.error s`.
-/

namespace MessageTray

inductive Urgency where
  | low
  | normal
  | high
  | critical
  deriving DecidableEq, Repr

def Urgency.toNat : Urgency → Nat
  | .low => 0
  | .normal => 1
  | .high => 2
  | .critical => 3

inductive NotificationState where
  | hidden
  | showing
  | shown
  | hiding
  deriving DecidableEq, Repr

inductive PresenceStatus where
  | available
  | invisible
  | busy
  | idle
  deriving DecidableEq, Repr

abbrev NotificationId := Nat

abbrev SourceId := Nat

structure Policy where
  showBanners : Bool
  forceExpanded : Bool
  deriving DecidableEq, Repr

structure Notification where
  source : SourceId
  urgency : Urgency
  acknowledged : Bool
  forFeedback : Bool
  isTransient : Bool
  deriving DecidableEq, Repr

structure Banner where
  notification : NotificationId
  expanded : Bool
  interactedWithTouchGesture : Bool
  /-- the tray listens to `hide-message` -/
  connected : Bool
  deriving DecidableEq, Repr

structure Environment where
  notifications : NotificationId → Notification
  policies : SourceId → Policy
  /-- `Main.layoutManager.primaryMonitor != null` -/
  hasMonitor : Bool
  inFullscreen : Bool
  hasNotifications : Bool
  screenShieldActive : Bool
  animationsEnabled : Bool
  /-- `get_idletime() > IDLE_TIME` -/
  userIdle : Bool
  pointer : Int × Int
  hover : Bool

structure State where
  env : Environment
  busy : Bool
  bannerBlocked : Bool
  lastDeviceIsTouchscreen : Bool
  notificationQueue : List NotificationId
  banner : Option Banner
  notificationState : NotificationState
  updatingState : Bool
  notificationTimeout : Bool
  /-- `_notificationLeftTimeoutId !== 0` -/
  notificationLeftTimeout : Bool
  notificationRemoved : Bool
  notificationExpired : Bool
  userActiveWhileNotificationShown : Bool
  userActiveWatches : Nat
  useLongerNotificationLeftTimeout : Bool
  pointerInNotification : Bool
  notificationHovered : Bool
  showNotificationMouse : Int × Int
  notificationLeftMouse : Int × Int
  lastSeenMouse : Int × Int
  /-- the transition of `_updateShowingNotification` is under way -/
  showTransition : Bool
  /-- the transition of `_hideNotification` is under way -/
  hideTransition : Bool

abbrev Result := Except State State

def Result.state : Result → State
  | .ok s => s
  | .error s => s

def maxNotificationsInQueue : Nat := 3

def mouseLeftActorThreshold : Int := 20

namespace State

/-- The fields after `_init`, whose `_sessionUpdated` finds an empty queue. -/
def new (env : Environment) : State where
  env := env
  busy := false
  bannerBlocked := false
  lastDeviceIsTouchscreen := false
  notificationQueue := []
  banner := none
  notificationState := .hidden
  updatingState := false
  notificationTimeout := false
  notificationLeftTimeout := false
  notificationRemoved := false
  notificationExpired := false
  userActiveWhileNotificationShown := false
  userActiveWatches := 0
  useLongerNotificationLeftTimeout := false
  pointerInNotification := false
  notificationHovered := false
  showNotificationMouse := (-1, -1)
  notificationLeftMouse := (-1, -1)
  lastSeenMouse := (-1, -1)
  showTransition := false
  hideTransition := false

variable (s : State)

variable (n : NotificationId)

def notification : Notification := s.env.notifications n

def policy : Policy := s.env.policies (s.notification n).source

def modifyEnv (f : Environment → Environment) : State := { s with env := f s.env }

def modifyNotification (f : Notification → Notification) :
    State :=
  s.modifyEnv fun env =>
    { env with
      notifications := fun m => if m = n then f (s.notification m) else s.notification m }

def current : Option NotificationId := s.banner.map Banner.notification

/-- The local `hasNotifications` of `_updateState` -/
def hasNotifications (s : State) : Bool :=
  s.env.hasNotifications && !s.env.screenShieldActive

/-- The local `limited` of `_updateState` -/
def limited : Bool := s.busy || s.env.inFullscreen

/-- The local `showNextNotification` of `_updateState` -/
def showNext : Bool :=
  !s.limited || (s.notification n).forFeedback ||
    (s.notification n).urgency = .critical

/-! ## Timers -/

def updateNotificationTimeout (timeout : Nat) : State :=
  { s with notificationTimeout := decide (0 < timeout) }

def resetNotificationLeftTimeout : State :=
  if s.notificationLeftTimeout then
    { s with
      useLongerNotificationLeftTimeout := false
      notificationLeftTimeout := false
      notificationLeftMouse := (-1, -1) }
  else { s with useLongerNotificationLeftTimeout := false }

/-! ## Hiding -/

/-- `_hideNotificationCompleted`. A transient notification is destroyed, and `_onNotificationRemoved`
finds that it is not the current one any more. -/
def hideNotificationCompleted : Result :=
  match s.banner with
  | none => .error s
  | some b =>
    .ok { s with
      notificationQueue :=
        if !s.notificationRemoved && (s.notification b.notification).isTransient then
          s.notificationQueue.erase b.notification
        else s.notificationQueue
      pointerInNotification := false
      notificationRemoved := false
      banner := none }

def hideStopped : Result :=
  { s with notificationState := .hidden, hideTransition := false }.hideNotificationCompleted

variable (upd : State → Result)

/-- `_bannerBin.remove_all_transitions()`. The transition of `_updateShowingNotification` has a
handler for its completion only, that of `_hideNotification` for any end. -/
def removeAllTransitions (s : State) : State :=
  if s.hideTransition then
    Result.state ({ s with showTransition := false }.hideStopped >>= upd)
  else { s with showTransition := false }

variable (b : Banner)

/-- `_hideNotification` before the transitions are removed. -/
def disconnectBanner : State :=
  { s with banner := some { b with connected := false } }.resetNotificationLeftTimeout

def setNotificationState (notificationState : NotificationState) : State :=
  { s with notificationState := notificationState }

/-- `_hideNotification` up to the transition. -/
def beginHide (s : State) : Result :=
  match s.banner with
  | none => .error s
  | some b =>
    .ok (((s.disconnectBanner b).removeAllTransitions upd).setNotificationState .hiding)

def hideNotification (animate : Bool) (s : State) : Result :=
  s.beginHide upd >>= fun s =>
    if animate && s.env.animationsEnabled then .ok { s with hideTransition := true }
    else s.hideStopped >>= upd

/-! ## Showing -/

/-- `onComplete` of the transition of `_updateShowingNotification`, up to its `_updateState`, with
`_showNotificationCompleted` -/
def showCompleted : Result :=
  match s.banner with
  | none => .error { s with notificationState := .shown, showTransition := false }
  | some b =>
    if (s.notification b.notification).urgency = .critical then
      .ok { s with notificationState := .shown, showTransition := false }
    else
      .ok ({ s with notificationState := .shown, showTransition := false }.updateNotificationTimeout
        4000)

/-- `_updateShowingNotification` before the transitions are removed. -/
def markShowing : State :=
  { s.modifyNotification b.notification fun n => { n with acknowledged := true } with
    banner := some { b with
      expanded := b.expanded || (s.notification b.notification).urgency = Urgency.critical ||
        (s.policy b.notification).forceExpanded || s.lastDeviceIsTouchscreen }
    notificationState := .showing }

/-- `_updateShowingNotification` up to the transition. -/
def beginShow (s : State) : Result :=
  match s.banner with
  | none => .error s
  | some b => .ok ((s.markShowing b).removeAllTransitions upd)

def updateShowingNotification (s : State) : Result :=
  s.beginShow upd >>= fun s =>
    if s.env.animationsEnabled then .ok { s with showTransition := true }
    else s.showCompleted >>= upd

/-- `_showNotification` up to `_updateShowingNotification`, with the notification that was first in
the queue. -/
def takeNotification (n : NotificationId) (rest : List NotificationId) : State :=
  { s with
    notificationQueue := rest
    userActiveWhileNotificationShown := !s.env.userIdle
    -- a watch lets us know when the user becomes active
    userActiveWatches := if s.env.userIdle then s.userActiveWatches + 1 else s.userActiveWatches
    banner := some ⟨n, false, false, true⟩ }

/-- `_showNotification` after `_updateShowingNotification`: the pointer may be where the banner
pops up. -/
def notePointer : State :=
  { s with
    showNotificationMouse := s.env.pointer
    lastSeenMouse := s.env.pointer }.resetNotificationLeftTimeout

/-- `_showNotification`, from inside of `_updateState` -/
def showNotification : Result :=
  match s.notificationQueue with
  | [] => .error s
  | n :: rest =>
    (s.takeNotification n rest).updateShowingNotification .ok >>= fun s => .ok s.notePointer

/-! ## `_updateState` -/

/-- The local `expired` of `_updateState`, for the banner that is there. -/
def expired : Bool :=
  (s.userActiveWhileNotificationShown && s.notificationState = .shown &&
    !s.notificationTimeout && (s.notification b.notification).urgency ≠ Urgency.critical &&
    !s.pointerInNotification && !b.interactedWithTouchGesture) || s.notificationExpired

/-- The local `mustClose` of `_updateState` -/
def mustClose : Bool :=
  s.notificationRemoved || !s.hasNotifications || s.expired b

/-- The local `animate` of `_updateState` -/
def animateHide : Bool := s.hasNotifications && !s.notificationRemoved

def dropAcknowledged : State :=
  { s with
    notificationQueue := s.notificationQueue.filter fun n => !(s.notification n).acknowledged }

/-- The branch of `_updateState` for a hidden banner. -/
def updateHidden : Result :=
  match s.notificationQueue with
  | [] => .ok s
  | n :: _ => if s.hasNotifications && s.showNext n then s.showNotification else .ok s

/-- The branch of `_updateState` for a banner that is there or comes up. -/
def updateShown : Result :=
  if s.mustClose b then s.hideNotification .ok s.animateHide
  else if s.notificationState = .shown && s.pointerInNotification then
    .ok { s with banner := some { b with expanded := true } }
  else .ok s

/-- The same branch without a banner: what it reads of `null` first throws. -/
def updateShownNull : Result :=
  if s.notificationState = .shown && (s.pointerInNotification ||
      (s.userActiveWhileNotificationShown && !s.notificationTimeout)) ||
      s.notificationExpired || s.notificationRemoved || !s.hasNotifications then .error s
  else .ok s

def updateBranch : Result :=
  match s.notificationState, s.banner with
  | .hidden, _ => s.updateHidden
  | .hiding, _ => .ok s
  | _, some b => s.updateShown b
  | _, none => s.updateShownNull

/-- The last lines of `_updateState` -/
def endUpdate : State :=
  { s with updatingState := false, notificationExpired := false }

def updateState : Result :=
  if s.bannerBlocked || !s.env.hasMonitor then .ok s
  -- no re-entrance
  else if s.updatingState then .ok s
  else { s with updatingState := true }.dropAcknowledged.updateBranch >>= fun s => .ok s.endUpdate

/-! ## Handlers -/

/-- What a handler comes to: its last act is to call `_updateState`, or it does not get to that. -/
inductive Handled where
  | update (s : State)
  | done (s : State)

def Handled.result : Handled → State
  | .update s => s.updateState.state
  | .done s => s

/-- A handler that calls `_updateState` after `r`, unless that throws. -/
def thenUpdate : Result → Handled
  | .ok s => .update s
  | .error s => .done s

def queueNotification (n : NotificationId) : State :=
  { s with
    notificationQueue := (s.notificationQueue ++ [n]).insertionSort fun a b =>
      (s.notification b).urgency.toNat ≤ (s.notification a).urgency.toNat }

/-- The local `full` of `_onNotificationRequestBanner` -/
def queueFull : Bool :=
  maxNotificationsInQueue ≤ s.notificationQueue.length + if s.banner.isSome then 1 else 0

def onNotificationRequestBanner (n : NotificationId) : Handled :=
  -- no banner for a notification that is acknowledged, or of low urgency
  if (s.notification n).acknowledged then .done s
  else if (s.notification n).urgency = .low then .done s
  else if !(s.policy n).showBanners && (s.notification n).urgency ≠ .critical then .done s
  else if s.current = some n then
    -- the notification that is being shown is updated
    thenUpdate (s.updateShowingNotification updateState)
  else if n ∉ s.notificationQueue ∧
      (s.queueFull = false ∨ (s.notification n).urgency = .critical) then
    .update (s.queueNotification n)
  else .update s

def onNotificationRemoved (n : NotificationId) : Handled :=
  if s.current = some n then
    if s.notificationState = .shown ∨ s.notificationState = .showing then
      .update ({ s with
        notificationRemoved := true
        pointerInNotification := false }.updateNotificationTimeout 0)
    else .done { s with notificationRemoved := true }
  else .done { s with notificationQueue := s.notificationQueue.erase n }

/-- A property `acknowledged` that is set to `false` makes the source ask for a banner. -/
def setAcknowledged (n : NotificationId) (acknowledged : Bool) : Handled :=
  if (s.notification n).acknowledged = acknowledged then .done s
  else if acknowledged then
    .done (s.modifyNotification n fun n => { n with acknowledged := true })
  else
    (s.modifyNotification n fun n => { n with acknowledged := false }).onNotificationRequestBanner n

def onStatusChanged : PresenceStatus → Handled
  | .busy => .update { s.updateNotificationTimeout 0 with busy := true }
  | .idle => .update s
  | .available | .invisible => .update { s with busy := false }

/-- `_onNotificationHoverChanged` when the pointer enters: the banner may be where the pointer was
when it popped up, as `underPointer` says. -/
def onNotificationEntered (underPointer : Bool) : Handled :=
  if s.showNotificationMouse.1 < 0 then
    .update { s.resetNotificationLeftTimeout with
      notificationHovered := true
      pointerInNotification := true }
  else if underPointer then
    .done { s.resetNotificationLeftTimeout with
      notificationHovered := true
      showNotificationMouse := (-1, -1)
      useLongerNotificationLeftTimeout := true }
  else
    .update { s.resetNotificationLeftTimeout with
      notificationHovered := true
      showNotificationMouse := (-1, -1)
      pointerInNotification := true }

/-- `_onNotificationHoverChanged` when the pointer leaves. -/
def onNotificationLeft : Handled :=
  .done { s with
    notificationHovered := false
    notificationLeftMouse := s.env.pointer
    notificationLeftTimeout := true }

def onNotificationHoverChanged (underPointer : Bool) : Handled :=
  if s.env.hover = s.notificationHovered then .done s
  else if s.env.hover then s.onNotificationEntered underPointer
  else s.onNotificationLeft

def pointerNearby : Bool :=
  -1 < s.notificationLeftMouse.1 &&
    s.env.pointer.2 < s.notificationLeftMouse.2 + mouseLeftActorThreshold &&
    s.env.pointer.2 > s.notificationLeftMouse.2 - mouseLeftActorThreshold &&
    s.env.pointer.1 < s.notificationLeftMouse.1 + mouseLeftActorThreshold &&
    s.env.pointer.1 > s.notificationLeftMouse.1 - mouseLeftActorThreshold

def onNotificationLeftTimeout : Handled :=
  if s.pointerNearby then
    -- the timeout is extended once
    .done { s with notificationLeftMouse := (-1, s.notificationLeftMouse.2) }
  else
    .update ({ s with
      notificationLeftTimeout := false
      useLongerNotificationLeftTimeout := false
      pointerInNotification := false }.updateNotificationTimeout 0)

/-- `_notificationTimeout`. It notes the pointer after `_updateState`, which does not read what was
noted. -/
def onNotificationTimeout : Handled :=
  if s.env.pointer.2 < s.lastSeenMouse.2 - 10 ∧ s.notificationHovered = false then
    -- the pointer moves towards the banner
    .done { s.updateNotificationTimeout 1000 with lastSeenMouse := s.env.pointer }
  else if s.useLongerNotificationLeftTimeout ∧ s.notificationLeftTimeout = false ∧
      s.env.pointer ≠ s.lastSeenMouse then
    .done { s.updateNotificationTimeout 1000 with lastSeenMouse := s.env.pointer }
  else .update { s with notificationTimeout := false, lastSeenMouse := s.env.pointer }

def onIdleMonitorBecameActive : Handled :=
  .update ({ s with
    userActiveWatches := s.userActiveWatches - 1
    userActiveWhileNotificationShown := true }.updateNotificationTimeout 2000)

/-- `hide-message` of the banner: `_hideNotification(false)`, whose `_updateState` is its last
act. -/
def onHideMessage : Handled := thenUpdate (s.beginHide updateState >>= hideStopped)

def modifyBanner (f : Banner → Banner) : State := { s with banner := s.banner.map f }

end State

/-! ## The system -/

inductive Event where
  /-- a source emits `notification-request-banner` -/
  | requestBanner (n : NotificationId)
  /-- a source emits `notification-removed` -/
  | removed (n : NotificationId)
  | setAcknowledged (n : NotificationId) (acknowledged : Bool)
  | setUrgency (n : NotificationId) (urgency : Urgency)
  | setForFeedback (n : NotificationId) (forFeedback : Bool)
  | setIsTransient (n : NotificationId) (isTransient : Bool)
  | policyNotify (source : SourceId) (policy : Policy)
  | statusChanged (status : PresenceStatus)
  | sessionUpdated (hasNotifications : Bool)
  | screenShieldActive (active : Bool)
  | inFullscreenChanged (inFullscreen : Bool)
  | monitorsChanged (hasMonitor : Bool)
  | setBannerBlocked (blocked : Bool)
  | animationsChanged (enabled : Bool)
  | lastDeviceChanged (touchscreen : Bool)
  | idletimeChanged (idle : Bool)
  | pointerMoved (pointer : Int × Int)
  | hoverChanged (hover underPointer : Bool)
  | notificationTimeout
  | notificationLeftTimeout
  | userActiveWatch
  /-- `_onNotificationKeyRelease` of the Escape key: `_expireNotification` -/
  | escapeReleased
  | hideMessage
  | expandActiveNotification
  | bannerUnexpanded
  | bannerTouched
  /-- the transition of `_updateShowingNotification` completes -/
  | showCompleted
  /-- the transition of `_hideNotification` completes -/
  | hideCompleted

open State in
def handle (s : State) : Event → Option State.Handled
  | .requestBanner n => some (s.onNotificationRequestBanner n)
  | .removed n => some (s.onNotificationRemoved n)
  | .setAcknowledged n b => some (s.setAcknowledged n b)
  | .setUrgency n u => some (.done (s.modifyNotification n fun n => { n with urgency := u }))
  | .setForFeedback n b =>
    some (.done (s.modifyNotification n fun n => { n with forFeedback := b }))
  | .setIsTransient n b =>
    some (.done (s.modifyNotification n fun n => { n with isTransient := b }))
  | .policyNotify source p =>
    some (.update (s.modifyEnv fun env =>
      { env with policies := fun i => if i = source then p else env.policies i }))
  | .statusChanged status => some (s.onStatusChanged status)
  | .sessionUpdated b => some (.update (s.modifyEnv fun env => { env with hasNotifications := b }))
  | .screenShieldActive b => some (.done (s.modifyEnv fun env => { env with screenShieldActive := b }))
  | .inFullscreenChanged b => some (.update (s.modifyEnv fun env => { env with inFullscreen := b }))
  | .monitorsChanged b => some (.done (s.modifyEnv fun env => { env with hasMonitor := b }))
  | .setBannerBlocked b =>
    if s.bannerBlocked = b then some (.done s) else some (.update { s with bannerBlocked := b })
  | .animationsChanged b => some (.done (s.modifyEnv fun env => { env with animationsEnabled := b }))
  | .lastDeviceChanged b => some (.done { s with lastDeviceIsTouchscreen := b })
  | .idletimeChanged b => some (.done (s.modifyEnv fun env => { env with userIdle := b }))
  | .pointerMoved p => some (.done (s.modifyEnv fun env => { env with pointer := p }))
  | .hoverChanged b underPointer =>
    some ((s.modifyEnv fun env => { env with hover := b }).onNotificationHoverChanged
      underPointer)
  | .notificationTimeout =>
    if s.notificationTimeout then some s.onNotificationTimeout else none
  | .notificationLeftTimeout =>
    if s.notificationLeftTimeout then some s.onNotificationLeftTimeout else none
  | .userActiveWatch =>
    if s.userActiveWatches = 0 then none else some s.onIdleMonitorBecameActive
  | .escapeReleased => some (.update { s with notificationExpired := true })
  | .hideMessage =>
    if (s.banner.map Banner.connected).getD false then some s.onHideMessage else none
  | .expandActiveNotification => some (.done (s.modifyBanner fun b => { b with expanded := true }))
  | .bannerUnexpanded => some (.done (s.modifyBanner fun b => { b with expanded := false }))
  | .bannerTouched =>
    some (.done (s.modifyBanner fun b => { b with interactedWithTouchGesture := true }))
  | .showCompleted => if s.showTransition then some (thenUpdate s.showCompleted) else none
  | .hideCompleted => if s.hideTransition then some (thenUpdate s.hideStopped) else none

def step (s : State) (e : Event) : Option State := (handle s e).map State.Handled.result

end MessageTray
