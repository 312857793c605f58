import GnomeShellMobile.Dict.Basic
import GnomeShellMobile.Dict.Enumeration
import GnomeShellMobile.Runs.Basic
import Mathlib.Logic.Function.Basic

/-!
# NotificationDaemon — the notifications of GTK applications

`GtkNotificationDaemon` and `GtkNotificationDaemonAppSource` of `js/ui/notificationDaemon.js`, with
`Source` of `js/ui/messageTray.js`, and the state that is kept between two daemons.

* `Notification`, `Source`, `State`: the objects, the maps, and what was written last.
* `addNotification`, `destroySource`, `saveNotifications`, `load` and the others, under the words of
  the source. A function that throws leaves the state that it had made, `Except.error s`.
* `step`: the calls of the applications, and the ends of notifications and sources.

Which dictionaries the constructor of a notification can set its properties from is a parameter. An
application id has a dot, so it is neither an array index nor inherited.
-/

namespace NotificationDaemon.Gtk

abbrev Serialized := List (String × String)

def stamp (c : Serialized) (now : ℕ) : Serialized :=
  c.filter (·.1 ≠ "timestamp") ++ [("timestamp", toString now)]

def arrayIndex (key : String) : Option ℕ :=
  let digits := key.toList
  let n := digits.foldl (fun n digit => 10 * n + (digit.toNat - '0'.toNat)) 0
  -- no leading zero
  if (digits = ['0'] ∨ digits ≠ [] ∧ digits.head? ≠ some '0' ∧ digits.all Char.isDigit) ∧
      n < 4294967295 then some n
  else none

def inherited : List String :=
  ["constructor", "__defineGetter__", "__defineSetter__", "hasOwnProperty", "__lookupGetter__",
    "__lookupSetter__", "isPrototypeOf", "propertyIsEnumerable", "toString", "valueOf", "__proto__",
    "toLocaleString"]

/-- A `GtkNotificationDaemonNotification`. -/
structure Notification where
  id : String
  source : ℕ
  serialized : Serialized

/-- A `GtkNotificationDaemonAppSource`. -/
structure Source where
  appId : String
  notifications : List ℕ
  byId : Dict String ℕ
  notificationPending : Bool
  inDestruction : Bool
  had : Bool

def Source.new (appId : String) : Source where
  appId := appId
  notifications := []
  byId := Dict.empty
  notificationPending := false
  inDestruction := false
  had := false

def Source.without (source : Source) (n : ℕ) (id : String) : Source :=
  { source with
    byId := source.byId.erase id
    notifications := source.notifications.erase n }

structure State where
  accepts : Serialized → Bool
  sources : Dict String ℕ
  source : ℕ → Source
  createdSources : ℕ
  notification : ℕ → Notification
  created : ℕ
  isLoading : Bool
  stored : List (String × List (String × Serialized))
  last : String → String → Option Serialized

def State.empty (accepts : Serialized → Bool) (isLoading : Bool)
    (stored : List (String × List (String × Serialized))) : State where
  accepts := accepts
  sources := Dict.empty
  source := fun _ => Source.new ""
  createdSources := 0
  notification := fun _ => ⟨"", 0, []⟩
  created := 0
  isLoading := isLoading
  stored := stored
  last := fun _ _ => none

def maxNotificationsPerSource : ℕ := 10

namespace State

variable (s : State)

variable (src : ℕ)

def setSource (source : Source) : State :=
  { s with source := Function.update s.source src source }

def serialize : List (String × Serialized) :=
  (Dict.enumerate arrayIndex (s.source src).byId.entries).map fun e =>
    (e.1, (s.notification e.2).serialized)

def saveNotifications : State :=
  if s.isLoading then s
  else { s with stored := s.sources.entries.map fun e => ((s.source e.2).appId, s.serialize e.2) }

def Listed (n : ℕ) : Prop := n ∈ (s.source (s.notification n).source).notifications
deriving Decidable

/-- What follows the signal `destroy` of a notification, but for the end of its source: both the
map and the list forget it, and the count is notified. -/
def release (n : ℕ) : State :=
  if s.Listed n then
    let src := (s.notification n).source
    (s.setSource src ((s.source src).without n (s.notification n).id)).saveNotifications
  else s

/-- `destroy` of a source, with the handler of the daemon. -/
def destroySource : State :=
  if (s.source src).notificationPending then s
  else
    let s := s.setSource src { s.source src with inDestruction := true }
    let s := (s.source src).notifications.foldl release s
    { s with sources := s.sources.erase (s.source src).appId }.saveNotifications

def destroyNotification (n : ℕ) : State :=
  let src := (s.notification n).source
  let t := s.release n
  if s.Listed n ∧ ¬ (s.source src).inDestruction ∧ (t.source src).notifications = [] then
    t.destroySource src
  else t

/-- `addNotification` of `Source`: the oldest make room. -/
def push (src n : ℕ) : State :=
  if n ∈ (s.source src).notifications then s
  else
    let notifications := (s.source src).notifications
    let s := (notifications.take (notifications.length + 1 - maxNotificationsPerSource)).foldl
      destroyNotification s
    (s.setSource src { s.source src with
      notifications := (s.source src).notifications ++ [n]
      had := true }).saveNotifications

def setPending (notificationPending : Bool) : State :=
  s.setSource src { s.source src with notificationPending := notificationPending }

def replace (id : String) : State :=
  match (s.source src).byId.get? id with
  | none => s
  | some old => s.destroyNotification old

/-- `addNotification`. What is inherited under an id has no `destroy`. -/
def addNotification (src n : ℕ) : Except State State :=
  let id := (s.notification n).id
  let s := s.setPending src true
  if id ∈ inherited then .error s
  else
    let s := s.replace src id
    let s := s.setSource src { s.source src with byId := (s.source src).byId.set id n }
    .ok ((s.push src n).setPending src false)

variable (appId : String)

/-- `_ensureAppSource`; `valid` says whether there is such an app. -/
def ensureAppSource (valid : Bool) : Option (State × ℕ) :=
  match s.sources.get? appId with
  | some src => some (s, src)
  | none =>
    if valid then
      some ({ s.setSource s.createdSources (Source.new appId) with
        createdSources := s.createdSources + 1
        sources := s.sources.set appId s.createdSources }, s.createdSources)
    else none

def addNew (id : String) (c : Serialized) : Except State State :=
  if s.accepts c then
    addNotification
      { s with
        notification := Function.update s.notification s.created ⟨id, src, c⟩
        created := s.created + 1 } src s.created
  else .error s

def addNotificationAsync (appId id : String) (c : Serialized) (now : ℕ) (valid : Bool) :
    State :=
  match s.ensureAppSource appId valid with
  | none => s
  | some (s, src) =>
    match s.addNew src id (stamp c now) with
    | .error t => t
    | .ok t =>
      { t with
        last := Function.update t.last appId
          (Function.update (t.last appId) id (some (stamp c now))) }

def removeNotificationAsync (appId id : String) : State :=
  match s.sources.get? appId with
  | none => s
  | some src =>
    match (s.source src).byId.get? id with
    | none => s
    | some n => s.destroyNotification n

def loadSource (validApp : String → Bool) (s : State) (e : String × List (String × Serialized)) :
    Except State State :=
  if e.2 = [] then .ok s
  else
    match s.ensureAppSource e.1 (validApp e.1) with
    | none => .ok s
    | some (s, src) => e.2.foldlM (fun s e => s.addNew src e.1 e.2) s

/-- A new daemon, with what `_loadNotifications` finds. -/
def load (validApp : String → Bool) (accepts : Serialized → Bool)
    (stored : List (String × List (String × Serialized))) : State :=
  match stored.foldlM (loadSource validApp) (State.empty accepts true stored) with
  | .ok s => { s with isLoading := false }
  | .error s => { s with isLoading := false }

def entries : List (String × Serialized) :=
  (s.source src).notifications.map fun n => ((s.notification n).id, (s.notification n).serialized)

def live : List (String × Serialized) :=
  match s.sources.get? appId with
  | none => []
  | some src => s.entries src

def storedFor : List (String × Serialized) :=
  (s.stored.lookup appId).getD []

end State

inductive Event where
  | addNotification (appId id : String) (c : Serialized) (now : ℕ) (valid : Bool)
  | removeNotification (appId id : String)
  | destroyNotification (n : ℕ)
  | destroySource (src : ℕ)

def step (s : State) : Event → Option State
  | .addNotification appId id c now valid => some (s.addNotificationAsync appId id c now valid)
  | .removeNotification appId id => some (s.removeNotificationAsync appId id)
  | .destroyNotification n => if s.Listed n then some (s.destroyNotification n) else none
  | .destroySource src =>
    if s.sources.get? (s.source src).appId = some src then some (s.destroySource src) else none

def State.Replaces (s : State) : Prop :=
  ∀ appId id c now valid src, s.sources.get? appId = some src → id ∈ (s.live appId).map Prod.fst →
    s.accepts (stamp c now) = true →
      (s.addNotificationAsync appId id c now valid).sources.get? appId = some src ∧
        (s.addNotificationAsync appId id c now valid).live appId =
          (s.live appId).filter (·.1 ≠ id) ++ [(id, stamp c now)]

/-- What was written last are the live notifications, as they were added last; a new daemon makes
the same, in the same order; an id in use is replaced; and no source is kept that has lost all of
its notifications. -/
structure Consistent (s : State) : Prop where
  stored : ∀ appId, (s.storedFor appId).Perm (s.live appId)
  once : ∀ appId, ((s.live appId).map Prod.fst).Nodup
  apps : (s.stored.map Prod.fst).Nodup
  last : ∀ appId id c, (id, c) ∈ s.live appId → s.last appId id = some c
  recreated : ∀ validApp : String → Bool, (∀ appId ∈ s.sources.keys, validApp appId = true) →
    ∀ appId, (State.load validApp s.accepts s.stored).live appId = s.live appId
  replaces : s.Replaces
  gone : ∀ appId, (appId, []) ∈ s.stored →
    ∃ src, s.sources.get? appId = some src ∧ (s.source src).had = false

end NotificationDaemon.Gtk
