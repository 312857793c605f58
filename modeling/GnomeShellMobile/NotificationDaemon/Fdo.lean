import GnomeShellMobile.Runs.Basic
import Mathlib.Logic.Function.Basic

/-!
# NotificationDaemon — the freedesktop notifications

`FdoNotificationDaemon` of `js/ui/notificationDaemon.js`, with the notifications and the sources of
`js/ui/messageTray.js` that it makes.

* `Value`, `Hints`, `Params`: what a client sends, and what of it can be converted.
* `Notification`, `Source`, `State`: the objects, and the maps of the daemon.
* `notifyAsync`, `destroyNotification`, `destroySource` and the others, under the words of the source.
* `step`: the calls of the clients, and what the user and the shell do with the notifications.

A notification is known by the id that it was made for. An id is a number without a bound.
-/

namespace NotificationDaemon.Fdo

inductive Value where
  | string (s : String)
  | number (n : ℕ)
  | image
  | other (truthy : Bool)
  deriving DecidableEq

def Value.truthy : Value → Bool
  | .string s => s ≠ ""
  | .number n => n ≠ 0
  | .image => true
  | .other truthy => truthy

inductive Icon where
  | pixbuf
  | uri (uri : String)
  | path (path : String)
  | themed (name : String)
  deriving DecidableEq

inductive Urgency where
  | low
  | normal
  | critical
  deriving DecidableEq

inductive PrivacyScope where
  | user
  | system
  deriving DecidableEq

structure Hints where
  /-- `x-shell-sender` and `x-shell-sender-pid`. -/
  sender : Option Value
  senderPid : Option ℕ
  desktopEntry : String
  /-- `image-data`, and `image_data` and `icon_data` of older versions. -/
  imageData : Option Value
  imageDataOld : Option Value
  iconData : Option Value
  /-- `image-path`, and `image_path` of an older version. -/
  imagePath : Option Value
  imagePathOld : Option Value
  soundFile : Option Value
  soundName : Option Value
  urgency : Value
  resident : Bool
  isTransient : Bool
  privacyScope : Option Value

/-- The arguments of `Notify`. -/
structure Params where
  appName : String
  replacesId : ℕ
  appIcon : String
  summary : String
  body : String
  actions : List String
  hints : Hints

def isTruthy (hint : Option Value) : Bool := hint.any Value.truthy

namespace Hints

def compatImagePath (hints : Hints) : Option Value :=
  if ¬ isTruthy hints.imagePath ∧ isTruthy hints.imagePathOld then hints.imagePathOld
  else hints.imagePath

def compatImageData (hints : Hints) : Option Value :=
  if isTruthy hints.imageData then hints.imageData
  else if isTruthy hints.imageDataOld then hints.imageDataOld
  else if isTruthy hints.iconData ∧ ¬ isTruthy hints.compatImagePath then hints.iconData
  else hints.imageData

end Hints

def iconForNotificationData (icon : String) : Option Icon :=
  if icon = "" then none
  else if icon.startsWith "file://" then some (.uri icon)
  else if icon.startsWith "/" then some (.path icon)
  else some (.themed icon)

structure Converted where
  gicon : Option Icon
  soundFile : Option String

variable (hints : Hints)

/-- `_imageForNotificationData`; `none` if it throws. -/
def imageForNotificationData : Option (Option Icon) :=
  if isTruthy hints.compatImageData then
    if hints.compatImageData = some .image then some (some .pixbuf) else none
  else
    match hints.compatImagePath with
    | some (.string icon) => some (iconForNotificationData icon)
    | icon => if isTruthy icon then none else some none

/-- The file of the sound; `none` if its path is none. -/
def soundForNotificationData : Option (Option String) :=
  match hints.soundFile with
  | none => some none
  | some (.string path) => some (some path)
  | some _ => none

/-- The hints that `NotifyAsync` converts before it sets anything. -/
def Hints.convert : Option Converted :=
  (imageForNotificationData hints).bind fun gicon =>
    (soundForNotificationData hints).map fun soundFile => ⟨gicon, soundFile⟩

def Watchable (sender : Option Value) : Prop :=
  ¬ isTruthy sender ∨ ∃ name, sender = some (.string name)

instance : (sender : Option Value) → Decidable (Watchable sender)
  | none => .isTrue (Or.inl (by decide))
  | some (.string name) => .isTrue (Or.inr ⟨name, rfl⟩)
  | some (.number n) => decidable_of_iff (¬ isTruthy (some (.number n)) = true) (by simp [Watchable])
  | some .image => .isFalse (by simp [Watchable, isTruthy, Value.truthy])
  | some (.other b) => decidable_of_iff (¬ isTruthy (some (.other b)) = true) (by simp [Watchable])

inductive DestroyedReason where
  | expired
  | dismissed
  | sourceClosed
  | replaced
  deriving DecidableEq

inductive ClosedReason where
  | expired
  | dismissed
  | appClosed
  | undefined
  deriving DecidableEq

def DestroyedReason.closed : DestroyedReason → ClosedReason
  | .expired => .expired
  | .dismissed => .dismissed
  | .sourceClosed => .appClosed
  | .replaced => .undefined

inductive Signal where
  | notificationClosed (id : ℕ) (reason : ClosedReason)
  | activationToken (id : ℕ)
  | actionInvoked (id : ℕ) (action : String)
  deriving DecidableEq

structure Notification where
  source : ℕ
  title : String
  body : String
  gicon : Option Icon
  soundFile : Option String
  soundName : Option Value
  acknowledged : Bool
  actions : List (String × String)
  /-- What `activated` is answered with: the default action, or `open` of the source. -/
  hasDefaultAction : Bool
  urgency : Urgency
  resident : Bool
  isTransient : Bool
  privacyScope : PrivacyScope

/-- `new MessageTray.Notification({source})`. -/
def Notification.new (source : ℕ) : Notification where
  source := source
  title := ""
  body := ""
  gicon := none
  soundFile := none
  soundName := none
  acknowledged := false
  actions := []
  hasDefaultAction := false
  urgency := .normal
  resident := false
  isTransient := false
  privacyScope := .user

/-- An `FdoNotificationDaemonSource`. -/
structure Source where
  app : Option ℕ
  /-- Its key in `_sourceForPidAndName`, if it is there. -/
  key : Option String
  appName : Option String
  appIcon : Option Icon
  notifications : List ℕ
  inDestruction : Bool

def Source.new (app : Option ℕ) (key : Option String) : Source where
  app := app
  key := key
  appName := none
  appIcon := none
  notifications := []
  inDestruction := false

structure Environment where
  getAppFromPid : Option ℕ → Option ℕ
  lookupApp : String → Option ℕ
  focusApp : Option ℕ

structure State where
  nextNotificationId : ℕ
  notifications : List ℕ
  notification : ℕ → Notification
  sourcesForApp : ℕ → Option ℕ
  sourceForPidAndName : String → Option ℕ
  source : ℕ → Source
  created : ℕ
  signals : List Signal
  given : List ℕ
  returned : List ℕ

def State.new : State where
  nextNotificationId := 1
  notifications := []
  notification := fun _ => Notification.new 0
  sourcesForApp := fun _ => none
  sourceForPidAndName := fun _ => none
  source := fun _ => Source.new none none
  created := 0
  signals := []
  given := []
  returned := []

def maxNotificationsPerSource : ℕ := 10

def getApp (env : Environment) (pid : Option ℕ) (appId appName : String) : Option ℕ :=
  (env.getAppFromPid pid).or <|
    (if appId = "" then none else env.lookupApp (appId ++ ".desktop")).or <|
      env.lookupApp (appName ++ ".desktop")

def pidAndName (pid : Option ℕ) (appName : String) : String :=
  (match pid with
    | none => "undefined"
    | some pid => toString pid) ++ appName

namespace State

variable (s : State)

variable (src : ℕ)

def setSource (source : Source) : State :=
  { s with source := Function.update s.source src source }

variable (n : ℕ)

def setNotification (notification : Notification) : State :=
  { s with notification := Function.update s.notification n notification }

def emit (signal : Signal) : State := { s with signals := s.signals ++ [signal] }

def Listed : Prop := n ∈ (s.source (s.notification n).source).notifications
deriving Decidable

/-- What follows the signal `destroy` of a notification, but for the end of its source: the daemon
forgets it and tells the clients, the source takes it out. It follows once, as the notification is
disposed. -/
def release (reason : DestroyedReason) (n : ℕ) : State :=
  if n ∈ s.notifications then
    let src := (s.notification n).source
    let s := { s with notifications := s.notifications.erase n }
    let s := s.emit (.notificationClosed n reason.closed)
    s.setSource src { s.source src with notifications := (s.source src).notifications.erase n }
  else s

/-- The handlers of `destroy` of a source. -/
def forgetSource : State :=
  { s with
    sourcesForApp := fun app => if (s.source src).app = some app then none else s.sourcesForApp app
    sourceForPidAndName := fun key =>
      if (s.source src).key = some key then none else s.sourceForPidAndName key }

/-- `destroy` of a source. While it lasts a notification does not destroy the source again. -/
def destroySource : State :=
  let s := s.setSource src { s.source src with inDestruction := true }
  ((s.source src).notifications.foldl (release · .dismissed ·) s).forgetSource src

def destroyNotification (reason : DestroyedReason) (n : ℕ) : State :=
  let src := (s.notification n).source
  let t := s.release reason n
  if s.Listed n ∧ n ∈ s.notifications ∧ ¬ (s.source src).inDestruction ∧
      (t.source src).notifications = [] then
    t.destroySource src
  else t

/-- `addNotification` of a source: the oldest make room. -/
def addNotification (src n : ℕ) : State :=
  if n ∈ (s.source src).notifications then s
  else
    let notifications := (s.source src).notifications
    let s := (notifications.take (notifications.length + 1 - maxNotificationsPerSource)).foldl
      (destroyNotification · .expired ·) s
    s.setSource src { s.source src with notifications := (s.source src).notifications ++ [n] }

variable (env : Environment)

def knownSource (p : Params) : Option ℕ :=
  match getApp env p.hints.senderPid p.hints.desktopEntry p.appName with
  | some app => s.sourcesForApp app
  | none => s.sourceForPidAndName (pidAndName p.hints.senderPid p.appName)

def addSource (p : Params) : State :=
  match getApp env p.hints.senderPid p.hints.desktopEntry p.appName with
  | some app =>
    { s.setSource s.created (Source.new (some app) none) with
      sourcesForApp := Function.update s.sourcesForApp app (some s.created)
      created := s.created + 1 }
  | none =>
    let key := pidAndName p.hints.senderPid p.appName
    -- without a pid the name alone says nothing
    if p.hints.senderPid.getD 0 = 0 then
      { s.setSource s.created (Source.new none none) with created := s.created + 1 }
    else
      { s.setSource s.created (Source.new none (some key)) with
        sourceForPidAndName := Function.update s.sourceForPidAndName key (some s.created)
        created := s.created + 1 }

/-- `_getSourceForApp` and `_getSourceForPidAndName`; `none` if the sender cannot be watched. -/
def getSource (p : Params) : Option (State × ℕ) :=
  match s.knownSource env p with
  | some src => some (s, src)
  | none => if Watchable p.hints.sender then some (s.addSource env p, s.created) else none

def actionPairs : List String → List (String × String)
  | actionId :: label :: actions =>
    if actionId = "default" then actionPairs actions else (actionId, label) :: actionPairs actions
  | _ => []

def hasDefault : List String → Bool
  | actionId :: _ :: actions => actionId = "default" || hasDefault actions
  | _ => false

def urgencyOf (hint : Value) (urgency : Urgency) : Urgency :=
  match hint with
  | .number 0 => .low
  | .number 1 => .normal
  | .number 2 => .critical
  | _ => urgency

def content (p : Params) (c : Converted) (notification : Notification) : Notification where
  source := notification.source
  title := p.summary
  body := p.body
  gicon := c.gicon
  soundFile := c.soundFile
  soundName := p.hints.soundName
  acknowledged := false
  actions := actionPairs p.actions
  hasDefaultAction := hasDefault p.actions
  urgency := urgencyOf p.hints.urgency notification.urgency
  resident := p.hints.resident
  isTransient := p.hints.isTransient
  privacyScope := if p.hints.privacyScope = some (.string "system") then .system else .user

def processNotification (src n : ℕ) (appName : String)
    (appIcon : Option Icon) : State :=
  let source := s.source src
  let s := s.setSource src
    { source with
      appName := if source.app = none ∧ appName ≠ "" then some appName else source.appName
      appIcon := if source.app = none ∧ appIcon ≠ none then appIcon else source.appIcon }
  let notification := s.notification n
  let s := s.setNotification n
    { notification with
      acknowledged := notification.acknowledged ||
        (notification.resident && source.app.isSome && env.focusApp = source.app) }
  s.addNotification src n

/-- `NotifyAsync` from the hints on. Hints that cannot be converted end it at once. -/
def fill (p : Params) (id : ℕ) : State :=
  match p.hints.convert with
  | none => s
  | some c =>
    let src := (s.notification id).source
    let s := s.setNotification id (content p c (s.notification id))
    let appIcon := if (s.source src).app.isSome then none else iconForNotificationData p.appIcon
    let s := s.processNotification env src id p.appName appIcon
    { s with returned := s.returned ++ [id] }

def notifyAsync (p : Params) : State :=
  if p.replacesId ≠ 0 ∧ p.replacesId ∈ s.notifications then s.fill env p p.replacesId
  else
    let id := s.nextNotificationId
    let s := { s with nextNotificationId := id + 1, given := id :: s.given }
    match s.getSource env p with
    | none => s
    | some (s, src) =>
      let s := s.setNotification id (Notification.new src)
      { s with notifications := s.notifications ++ [id] }.fill env p id

def closeNotification (id : ℕ) : State :=
  if id ∈ s.notifications then s.destroyNotification .sourceClosed id else s

def destroyNonResidentNotifications : State :=
  ((s.source src).notifications.filter fun n => !(s.notification n).resident).reverse.foldl
    (destroyNotification · .dismissed ·) s

def dismissUnlessResident : State :=
  if (s.notification n).resident then s else s.destroyNotification .dismissed n

def activate : State :=
  let t :=
    if (s.notification n).hasDefaultAction then
      (s.emit (.activationToken n)).emit (.actionInvoked n "default")
    else s.destroyNonResidentNotifications (s.notification n).source
  t.dismissUnlessResident n

def activateAction (actionId : String) : State :=
  ((s.emit (.activationToken n)).emit (.actionInvoked n actionId)).dismissUnlessResident n

end State

inductive Event where
  | notify (env : Environment) (p : Params)
  | closeNotification (id : ℕ)
  | activate (n : ℕ)
  | activateAction (n : ℕ) (action : String × String)
  | destroyNotification (n : ℕ) (reason : DestroyedReason)
  /-- Its sender is gone, for one. -/
  | destroySource (src : ℕ)

variable (s : State)

def step : Event → Option State
  | .notify env p => some (s.notifyAsync env p)
  | .closeNotification id => some (s.closeNotification id)
  | .activate n => if s.Listed n then some (s.activate n) else none
  | .activateAction n action =>
    if s.Listed n ∧ action ∈ (s.notification n).actions then some (s.activateAction n action.1)
    else none
  | .destroyNotification n reason =>
    if s.Listed n then some (s.destroyNotification reason n) else none
  | .destroySource src =>
    if src < s.created ∧ (s.source src).inDestruction = false then some (s.destroySource src)
    else none

def Signal.closes (id : ℕ) : Signal → Bool
  | .notificationClosed id' _ => id' = id
  | _ => false

def State.closed (id : ℕ) : ℕ := s.signals.countP (Signal.closes id)

def State.Replaces : Prop :=
  ∀ env p, p.replacesId ∈ s.notifications →
    (s.notifyAsync env p).notifications = s.notifications ∧
      (∀ src, ((s.notifyAsync env p).source src).notifications = (s.source src).notifications) ∧
      (s.notifyAsync env p).given = s.given ∧
      (s.notifyAsync env p).returned =
        s.returned ++ if p.hints.convert.isSome then [p.replacesId] else []

/-- The ids of the daemon are those of the listed notifications, each once, the ids that were given
differ, replacing keeps an id, and an id that was returned is closed once, when it is gone. -/
structure Consistent : Prop where
  registered : ∀ n, n ∈ s.notifications ↔ s.Listed n
  notifications : s.notifications.Nodup
  lists : ∀ src, (s.source src).notifications.Nodup
  given : s.given.Nodup
  replaces : s.Replaces
  closed : ∀ id ∈ s.returned, s.closed id = if id ∈ s.notifications then 0 else 1

end NotificationDaemon.Fdo
