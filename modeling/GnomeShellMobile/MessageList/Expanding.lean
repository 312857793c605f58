import GnomeShellMobile.Runs.Basic
import Mathlib.Logic.Function.Basic

/-!
# MessageList — expanding a group of notifications

`_setExpandedGroup` of `MessageView` in `js/ui/messageList.js`, with `expand` and `collapse` of the
groups, which it awaits.

* `Group`, `Call`, `State`: the groups, the calls of `_setExpandedGroup` that have not returned, and
  the fields of the view.
* `easeExpansion`, `expand`, `collapse`, `showGroup`, `setExpandedGroup`: the functions, cut at their
  `await`s.
* `step`: what the user, the sources, the animations and the queue of jobs do.

An animation that is overwritten or dropped does not call its `onComplete`, so that what awaits it
waits for good. The order of the messages, the highlight and the scrolling are left out.
-/

namespace MessageList.Expanding

/-- A `NotificationMessageGroup`. -/
structure Group where
  /-- The field `_expanded`. -/
  expandedFlag : Bool
  /-- The messages in `_notificationToMessage`. -/
  size : ℕ
  /-- Those of them that are zoomed out to be removed. -/
  removing : ℕ
  easing : Bool
  mapped : Bool
  leaving : Bool
  deriving DecidableEq

def Group.expanded (g : Group) : Bool := g.expandedFlag || g.size = 1

/-- A group of a source with `size` notifications. -/
def Group.new (size : ℕ) (mapped : Bool) : Group :=
  { expandedFlag := false
    size := size
    removing := 0
    easing := false
    mapped := mapped
    leaving := false }

/-- A call of `_setExpandedGroup`, by what it awaits. -/
inductive Call where
  /-- The animation that collapses `prevGroup`, -/
  | collapsing (prevGroup : ℕ) (group : Option ℕ)
  | collapsed (group : Option ℕ)
  /-- The animation that expands `group`. -/
  | expanding (group : ℕ)
  /-- An animation that is not completed any more. -/
  | stuck
  deriving DecidableEq

/-- What becomes of a call when the animation of `g` goes without being completed. -/
def Call.drop (g : ℕ) : Call → Call
  | .collapsing prevGroup group => if prevGroup = g then .stuck else .collapsing prevGroup group
  | .expanding group => if group = g then .stuck else .expanding group
  | call => call

/-- What becomes of a call when the animation of `g` is completed. -/
def Call.complete (g : ℕ) : Call → Call
  | .collapsing prevGroup group =>
    if prevGroup = g then .collapsed group else .collapsing prevGroup group
  | call => call

structure State where
  groups : List ℕ
  group : ℕ → Group
  created : ℕ
  expandedGroup : Option ℕ
  overlay : Bool
  calls : List Call
  returning : ℕ

namespace State

variable (s : State)

variable (g : ℕ)

def setGroup (group : Group) : State :=
  { s with group := Function.update s.group g group }

def dropEasing : State :=
  { s.setGroup g { s.group g with easing := false } with calls := s.calls.map (Call.drop g) }

/-- The expansion of `g` is animated, and the call awaits it. An actor that is not mapped is at its
target at once. -/
def easeExpansion (awaits : Call) (done : State → State) : State :=
  let s := s.dropEasing g
  if (s.group g).mapped then
    { s.setGroup g { s.group g with easing := true } with calls := awaits :: s.calls }
  else done s

def expand : State :=
  if (s.group g).expandedFlag then { s with returning := s.returning + 1 }
  else (s.setGroup g { s.group g with expandedFlag := true }).easeExpansion g (.expanding g)
    fun s => { s with returning := s.returning + 1 }

/-- What `_setExpandedGroup` does once the previous group is collapsed. A group that is destroyed
has no parent, so that it throws. -/
def showGroup : Option ℕ → State
  | none => { s with overlay := false }
  | some g => if g ∈ s.groups then { s with overlay := true }.expand g else s

/-- `await prevGroup.collapse()`, which throws for a group that is destroyed. -/
def collapse (prevGroup : ℕ) (group : Option ℕ) : State :=
  if !(s.group prevGroup).expandedFlag then { s with calls := .collapsed group :: s.calls }
  else if prevGroup ∈ s.groups then
    (s.setGroup prevGroup { s.group prevGroup with expandedFlag := false }).easeExpansion prevGroup
      (.collapsing prevGroup group) fun s => { s with calls := .collapsed group :: s.calls }
  else s

def setExpandedGroup (group : Option ℕ) : State :=
  if s.expandedGroup = group then s
  else
    match s.expandedGroup with
    | none => { s with expandedGroup := group }.showGroup group
    | some prevGroup => { s with expandedGroup := group }.collapse prevGroup group

/-- The handler of `expand-toggle-requested`. -/
def toggle : State :=
  s.setExpandedGroup (if (s.group g).expanded then none else some g)

def notificationRemoved : State :=
  let s := s.setGroup g { s.group g with size := (s.group g).size - 1 }
  if (s.group g).size = 1 then s.toggle g else s

def removeNotification : State :=
  if (s.group g).mapped then s.setGroup g { s.group g with removing := (s.group g).removing + 1 }
  else s.notificationRemoved g

/-- `item.destroy()` of `_removeMessage`. -/
def groupRemoved : State :=
  { s.dropEasing g with groups := s.groups.filter (· ≠ g) }

def removeNotificationSource : State :=
  if (s.group g).mapped then s.setGroup g { s.group g with leaving := true } else s.groupRemoved g

def addNotificationSource (size : ℕ) (mapped : Bool) : State :=
  { s.setGroup s.created (Group.new size mapped) with
    groups := s.created :: s.groups
    created := s.created + 1 }

def complete (s : State) (g : ℕ) : State :=
  { s.setGroup g { s.group g with easing := false } with
    calls := (s.calls.filter (· ≠ .expanding g)).map (Call.complete g)
    returning := s.returning + s.calls.count (.expanding g) }

def new : State :=
  { groups := []
    group := fun _ => Group.new 0 false
    created := 0
    expandedGroup := none
    overlay := false
    calls := []
    returning := 0 }

end State

inductive Event where
  | addNotificationSource (size : ℕ) (mapped : Bool)
  | addNotification (g : ℕ)
  | removeNotification (g : ℕ)
  | notificationRemoved (g : ℕ)
  /-- `expand-toggle-requested`, of the user. -/
  | toggle (g : ℕ)
  | collapse
  | removeNotificationSource (g : ℕ)
  | groupRemoved (g : ℕ)
  | map (g : ℕ) (mapped : Bool)
  | complete (g : ℕ)
  | interrupt (g : ℕ)
  | collapsed (group : Option ℕ)
  | return
  deriving DecidableEq

open State in
def step (s : State) : Event → Option State
  | .addNotificationSource size mapped => some (s.addNotificationSource size mapped)
  | .addNotification g =>
    if g ∈ s.groups then some (s.setGroup g { s.group g with size := (s.group g).size + 1 })
    else none
  | .removeNotification g =>
    if g ∈ s.groups ∧ (s.group g).removing < (s.group g).size then some (s.removeNotification g)
    else none
  | .notificationRemoved g =>
    if g ∈ s.groups ∧ 0 < (s.group g).removing then
      some ((s.setGroup g { s.group g with removing := (s.group g).removing - 1 }).notificationRemoved g)
    else none
  | .toggle g => if g ∈ s.groups then some (s.toggle g) else none
  | .collapse => some (s.setExpandedGroup none)
  | .removeNotificationSource g =>
    if g ∈ s.groups then some (s.removeNotificationSource g) else none
  | .groupRemoved g =>
    if g ∈ s.groups ∧ (s.group g).leaving then some (s.groupRemoved g) else none
  | .map g mapped =>
    if g ∈ s.groups then some (s.setGroup g { s.group g with mapped := mapped }) else none
  | .complete g => if g ∈ s.groups ∧ (s.group g).easing then some (s.complete g) else none
  | .interrupt g => if g ∈ s.groups ∧ (s.group g).easing then some (s.dropEasing g) else none
  | .collapsed group =>
    if .collapsed group ∈ s.calls then
      some ({ s with calls := s.calls.erase (.collapsed group) }.showGroup group)
    else none
  | .return => if 0 < s.returning then some { s with returning := s.returning - 1 } else none

end MessageList.Expanding
