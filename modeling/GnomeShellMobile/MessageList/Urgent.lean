import GnomeShellMobile.Runs.Basic
import Mathlib.Data.Int.Notation
import Mathlib.Logic.Function.Basic

/-!
# MessageList — urgent notifications first

The counters `_nUrgent` of `NotificationMessageGroup` and `MessageView` in `js/ui/messageList.js`, and
the order of the messages that follows them.

* `Message`, `Group`, `State`: the messages of the view, the groups, the notifications of the sources,
  and the animations that are pending.
* `count`, `moveMessage` and the handlers, under the words of the source.
* `step`: what the sources, their notifications and the players do, and the end of an animation.

An item that is not mapped is animated in no time: the end follows its start at once. The order of
the messages of a group is left out.
-/

namespace MessageList.Urgent

inductive Urgency where
  | low
  | normal
  | high
  | critical
  deriving DecidableEq

inductive Message where
  | media (player : ℕ)
  | group (g : ℕ)
  deriving DecidableEq

inductive Pending where
  | move (index : ℤ)
  | remove
  deriving DecidableEq

/-- A `NotificationMessageGroup`. -/
structure Group where
  source : ℕ
  nUrgent : ℤ

def spliceIndex (length : ℕ) (index : ℤ) : ℕ :=
  if index < 0 then (length + index).toNat else index.toNat

def splice {α : Type*} (array : List α) (index : ℤ) (x : α) : List α :=
  array.take (spliceIndex array.length index) ++ x :: array.drop (spliceIndex array.length index)

def getAt {α : Type*} (array : List α) (index : ℤ) : Option α :=
  if index < 0 then none else array[index.toNat]?

structure State where
  notifications : ℕ → List Urgency
  group : ℕ → Group
  created : ℕ
  /-- The groups in `_notificationSourceToGroup`. -/
  notificationGroups : List ℕ
  players : List ℕ
  messages : List Message
  pending : Message → Option Pending
  nUrgent : ℤ

namespace State

variable (s : State)

variable (g : ℕ)

def hasUrgent : Bool := 0 < (s.group g).nUrgent

def groupIndex : ℤ := s.players.length + if s.hasUrgent g then 0 else s.nUrgent

def animate (m : Message) (pending : Option Pending) : State :=
  { s with pending := Function.update s.pending m pending }

def moveMessage (m : Message) (index : ℤ) : State :=
  if m ∉ s.messages ∨ getAt s.messages index = some m then s else s.animate m (some (.move index))

def onNotificationAdded : State := s.moveMessage (.group g) (s.groupIndex g)

/-- The handler of `notify::has-urgent`. -/
def onHasUrgent : State :=
  let s := { s with nUrgent := if s.hasUrgent g then s.nUrgent + 1 else s.nUrgent - 1 }
  s.moveMessage (.group g) (s.groupIndex g)

def setGroup (group : Group) : State :=
  { s with group := Function.update s.group g group }

def addUrgent (n : ℤ) : State :=
  s.setGroup g { s.group g with nUrgent := (s.group g).nUrgent + n }

/-- It is changed and `has-urgent` notified. -/
def count (n : ℤ) : State :=
  let t := s.addUrgent g n
  if t.hasUrgent g = s.hasUrgent g then t else t.onHasUrgent g

variable (urgency : Urgency)

def groupAddNotification (s : State) (g : ℕ) : State :=
  (s.count g (if urgency = .critical then 1 else 0)).onNotificationAdded g

/-- The handler of `notify::urgency`. -/
def onUrgency (s : State) (g : ℕ) : State :=
  s.count g (if urgency = .critical then 1 else -1)

def groupRemoveNotification (s : State) (g : ℕ) : State :=
  s.addUrgent g (if urgency = .critical then -1 else 0)

variable (source : ℕ)

def groupsOf : List ℕ :=
  (List.range s.created).filter fun g => .group g ∈ s.messages ∧ (s.group g).source = source

def setNotifications (notifications : List Urgency) : State :=
  { s with notifications := Function.update s.notifications source notifications }

def addNotification (urgency : Urgency) : State :=
  (s.groupsOf source).foldl (groupAddNotification urgency)
    (s.setNotifications source (s.notifications source ++ [urgency]))

def removeNotification (source i : ℕ) (urgency : Urgency) : State :=
  (s.groupsOf source).foldl (groupRemoveNotification urgency)
    (s.setNotifications source ((s.notifications source).eraseIdx i))

def setUrgency (source i : ℕ) (urgency : Urgency) : State :=
  (s.groupsOf source).foldl (onUrgency urgency)
    (s.setNotifications source ((s.notifications source).set i urgency))

/-- `_addNotificationSource`. The new group counts the notifications that the source has. -/
def addNotificationSource : State :=
  let g := s.created
  let nUrgent := (s.notifications source).countP (· = .critical)
  let s := { s.setGroup g { source := source, nUrgent := nUrgent } with
    created := g + 1
    notificationGroups := s.notificationGroups ++ [g] }
  let s := if s.hasUrgent g then { s with nUrgent := s.nUrgent + 1 } else s
  { s with messages := splice s.messages (s.groupIndex g) (.group g) }

def removeNotificationSource (g : ℕ) : State :=
  let s := s.animate (.group g) (some .remove)
  let s := if s.hasUrgent g then { s with nUrgent := s.nUrgent - 1 } else s
  { s with notificationGroups := s.notificationGroups.filter (· ≠ g) }

def addPlayer (player : ℕ) : State :=
  { s with players := s.players ++ [player], messages := splice s.messages 0 (.media player) }

def removePlayer (player : ℕ) : State :=
  { s.animate (.media player) (some .remove) with players := s.players.filter (· ≠ player) }

def complete (m : Message) : Pending → State
  | .move index => { s.animate m none with messages := splice (s.messages.erase m) index m }
  | .remove => { s.animate m none with messages := s.messages.erase m }

def new : State :=
  { notifications := fun _ => []
    group := fun _ => { source := 0, nUrgent := 0 }
    created := 0
    notificationGroups := []
    players := []
    messages := []
    pending := fun _ => none
    nUrgent := 0 }

end State

inductive Event where
  | addNotification (source : ℕ) (urgency : Urgency)
  | removeNotification (source i : ℕ)
  | setUrgency (source i : ℕ) (urgency : Urgency)
  | addNotificationSource (source : ℕ)
  | removeNotificationSource (g : ℕ)
  | addPlayer (player : ℕ)
  | removePlayer (player : ℕ)
  | complete (m : Message)
  deriving DecidableEq

open State in
def step (s : State) : Event → Option State
  | .addNotification source urgency => some (s.addNotification source urgency)
  | .removeNotification source i =>
    (s.notifications source)[i]?.map fun urgency => s.removeNotification source i urgency
  | .setUrgency source i urgency =>
    if i < (s.notifications source).length ∧ (s.notifications source)[i]? ≠ some urgency then
      some (s.setUrgency source i urgency)
    else none
  | .addNotificationSource source =>
    if ∀ g ∈ s.notificationGroups, (s.group g).source ≠ source then
      some (s.addNotificationSource source)
    else none
  | .removeNotificationSource g =>
    if g ∈ s.notificationGroups then some (s.removeNotificationSource g) else none
  | .addPlayer player =>
    if player ∉ s.players ∧ .media player ∉ s.messages then some (s.addPlayer player) else none
  | .removePlayer player => if player ∈ s.players then some (s.removePlayer player) else none
  | .complete m => (s.pending m).map (s.complete m)

end MessageList.Urgent
