import Mathlib.Logic.Function.Iterate
import GnomeShellMobile.MessageTray.Moves

/-!
# MessageTray — the sources of the notifications

The tray with the sources that were added to it. A source keeps its notifications and emits
`notification-request-banner`, `notification-removed` and `destroy`; the tray listens to these while
the policy of the source is enabled. `add` connects two handlers to the policy: for `notify::enable`,
and for any change.

A transient notification is destroyed when its banner is hidden. It is not queued then and not shown
any more, so this is a `destroyNotification` of its own here, after the hide.
-/

namespace MessageTray

def maxNotificationsPerSource : Nat := 10

structure World where
  tray : State
  enable : SourceId → Bool
  contains : SourceId → Bool
  /-- how many times `add` has connected its handlers to the policy -/
  policyHandlers : SourceId → Nat
  /-- how many times `_addSource` has connected its handlers to the source -/
  handlers : SourceId → Nat
  notifications : SourceId → List NotificationId
  removed : NotificationId → Bool
  destroyed : SourceId → Bool

namespace World

def new (env : Environment) (enable : SourceId → Bool) : World where
  tray := State.new env
  enable := enable
  contains _ := false
  policyHandlers _ := 0
  handlers _ := 0
  notifications _ := []
  removed _ := false
  destroyed _ := false

def source (w : World) (n : NotificationId) : SourceId := (w.tray.notification n).source

/-! ## The tray -/

variable (w : World)

variable (src : SourceId)

def addSource : World :=
  { w with
    contains := Function.update w.contains src true
    handlers := Function.update w.handlers src (w.handlers src + 1) }

def removeSource : World :=
  { w with
    contains := Function.update w.contains src false
    handlers := Function.update w.handlers src 0 }

def onSourceEnableChanged : World :=
  if w.contains src = w.enable src then w
  else if w.enable src then w.addSource src
  else w.removeSource src

def add : World :=
  if w.contains src then w
  else
    { w with
      policyHandlers :=
        Function.update w.policyHandlers src (w.policyHandlers src + 1) }.onSourceEnableChanged src

def updateState (w : World) : World := { w with tray := w.tray.updateState.state }

/-- The two handlers of `add`, for a change of `enable` -/
def notifyEnable (w : World) : World := (w.onSourceEnableChanged src).updateState

def setEnable (b : Bool) : World :=
  (notifyEnable src)^[w.policyHandlers src]
    { w with enable := Function.update w.enable src b }

def setPolicy (p : Policy) : World :=
  updateState^[w.policyHandlers src]
    { w with
      tray := w.tray.modifyEnv fun env => { env with policies := Function.update env.policies src p } }

/-! ## The sources -/

variable (n : NotificationId)

/-- A source emits `notification-request-banner`. -/
def requestBanner : World :=
  { w with
    tray := (fun s => (s.onNotificationRequestBanner n).result)^[w.handlers (w.source n)] w.tray }

/-- `_onNotificationDestroy` up to the emission of `notification-removed`. -/
def removeNotification : World :=
  { w with
    notifications :=
      Function.update w.notifications (w.source n) ((w.notifications (w.source n)).erase n)
    removed := Function.update w.removed n true
    tray := (fun s => (s.onNotificationRemoved n).result)^[w.handlers (w.source n)] w.tray }

def emitDestroy : World :=
  if w.handlers src = 0 then { w with destroyed := Function.update w.destroyed src true }
  else { w with destroyed := Function.update w.destroyed src true }.removeSource src

def destroySource : World :=
  ((w.notifications src).foldl removeNotification w).emitDestroy src

/-- `_onNotificationDestroy`. A source without notifications is destroyed, unless it has one
`pending` that replaces the other. -/
def onNotificationDestroy (pending : Bool) : World :=
  if (w.removeNotification n).notifications (w.source n) = [] ∧ pending = false then
    (w.removeNotification n).destroySource (w.source n)
  else w.removeNotification n

/-- The loop of `addNotification`, with the notifications of the source. -/
def destroyOldest : List NotificationId → World → World
  | [], w => w
  | oldest :: rest, w =>
    if maxNotificationsPerSource ≤ rest.length + 1 then
      destroyOldest rest (w.onNotificationDestroy oldest false)
    else w

def pushNotification : World :=
  { w with
    notifications :=
      Function.update w.notifications (w.source n) (w.notifications (w.source n) ++ [n]) }

def addNotification : World :=
  if n ∈ w.notifications (w.source n) then w
  else
    ((destroyOldest (w.notifications (w.source n)) w).pushNotification n).requestBanner n

def acknowledge (b : Bool) : World :=
  { w with tray := w.tray.modifyNotification n fun n => { n with acknowledged := b } }

/-- A property `acknowledged` that is set to `false` makes the source ask for a banner. -/
def setAcknowledged (b : Bool) : World :=
  if (w.tray.notification n).acknowledged = b then w
  else if b = false ∧ n ∈ w.notifications (w.source n) then (w.acknowledge n b).requestBanner n
  else w.acknowledge n b

end World

/-! ## The system -/

inductive WorldEvent where
  | add (src : SourceId)
  | setEnable (src : SourceId) (b : Bool)
  | setPolicy (src : SourceId) (p : Policy)
  | addNotification (n : NotificationId)
  | destroyNotification (n : NotificationId) (pending : Bool)
  | destroySource (src : SourceId)
  | requestBanner (n : NotificationId)
  | setAcknowledged (n : NotificationId) (b : Bool)
  | tray (e : Event)

def Event.ofSource : Event → Bool
  | .requestBanner _ | .removed _ | .setAcknowledged _ _ | .policyNotify _ _ => true
  | _ => false

namespace World

def step (w : World) : WorldEvent → Option World
  | .add src => if w.destroyed src then none else some (w.add src)
  -- the policy is destroyed with its source
  | .setEnable src b => if w.destroyed src then none else some (w.setEnable src b)
  | .setPolicy src p => if w.destroyed src then none else some (w.setPolicy src p)
  | .addNotification n =>
    if w.removed n || w.destroyed (w.source n) then none else some (w.addNotification n)
  | .destroyNotification n pending =>
    if n ∈ w.notifications (w.source n) then some (w.onNotificationDestroy n pending) else none
  | .destroySource src => if w.destroyed src then none else some (w.destroySource src)
  | .requestBanner n =>
    if n ∈ w.notifications (w.source n) then some (w.requestBanner n) else none
  | .setAcknowledged n b => some (w.setAcknowledged n b)
  | .tray e =>
    if e.ofSource then none else (MessageTray.step w.tray e).map fun s => { w with tray := s }

end World

end MessageTray
