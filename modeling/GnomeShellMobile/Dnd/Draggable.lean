import GnomeShellMobile.Runs.Basic

/-!
# Dnd — the drags of a draggable

`_Draggable` of `js/ui/dnd.js`: from the gesture that begins a drag to the signal `drag-end`.

* `State`: the fields of a draggable, the transitions that run, and how often each signal was emitted.
* `gestureRecognized`, `cancelDrag`, `dragActorDropped`, `onAnimationComplete`, `dragComplete` and
  the others, under the words of the source.
* `step`: motions, releases and presses of Escape, the ends of transitions, and destroyed actors.
* `Law`: what a drag owes to those who were told that it began.

Positions, sizes and the cursor are left out: they only decide whether an ease has something to
animate, and that is part of the event. What the functions rely on: a property that is set stops its
transition, and a transition that stops signals it. Whether it signals it when its actor is
destroyed is a parameter.
-/

namespace Dnd

inductive DragMotionResult where
  | noDrop
  | copyDrop
  | moveDrop
  | cont
deriving DecidableEq

inductive DragDropResult where
  | failure
  | success
  | cont
deriving DecidableEq

/-- What is animated at the end of a drag; `x` and `y` are the position. -/
inductive Property where
  | position
  | scale
  | opacity
deriving DecidableEq

structure Handler (α : Type*) where
  destroys : Bool
  answer : α
deriving DecidableEq

/-- What `acceptDrop` does with the drag actor. -/
inductive Fate where
  | leaves
  | takes
  | destroys
deriving DecidableEq

inductive Answer where
  | accepts
  | refuses
  | throws
deriving DecidableEq

structure DropTarget where
  fate : Fate
  answer : Answer
deriving DecidableEq

inductive DragActorSource where
  /-- `getDragActorSource`, with a handler for its end. -/
  | delegate
  | actor

structure Params where
  restoreOnSuccess : Bool
  dragActorMaxSize : Bool
  /-- There is a `dragActorOpacity`. -/
  dragActorOpacity : Bool
  /-- The transitions of an actor that is destroyed signal that they stop. -/
  signalsDestroyed : Bool

structure State where
  params : Params
  created : ℕ
  destroyed : List ℕ
  dragActor : Option ℕ
  dragActorSource : Option DragActorSource
  dragOrigParent : Bool
  /-- The parent of the drag actor is `Main.uiGroup`. -/
  inUiGroup : Bool
  grab : Bool
  updateHoverId : Bool
  dragCancellable : Bool
  animationInProgress : Bool
  easing : List (ℕ × Property)
  /-- The actors that are still scaled down. -/
  scaling : List ℕ
  dragBegins : ℕ
  dragCancels : ℕ
  dragEnds : ℕ
  /-- Calls of `pushModal` and of `popModal`. -/
  pushes : ℕ
  pops : ℕ
  /-- How often a null drag actor was used, or handed to a handler. -/
  faults : ℕ

def State.new (params : Params) : State where
  params := params
  created := 0
  destroyed := []
  dragActor := none
  dragActorSource := none
  dragOrigParent := false
  inUiGroup := false
  grab := false
  updateHoverId := false
  dragCancellable := true
  animationInProgress := false
  easing := []
  scaling := []
  dragBegins := 0
  dragCancels := 0
  dragEnds := 0
  pushes := 0
  pops := 0
  faults := 0

namespace State

variable (s : State)

def fault : State := { s with faults := s.faults + 1 }

/-- A use of `this._dragActor`: what follows is not reached if that is null. -/
def withDragActor (f : State → ℕ → State) : State :=
  match s.dragActor with
  | none => s.fault
  | some a => f s a

def emitDragEnd : State := { s with dragEnds := s.dragEnds + 1 }

def ungrabEvents : State := { s with grab := false, pops := s.pops + 1 }

def dragComplete : State :=
  let s := if s.grab then s.ungrabEvents else s
  { s with
    updateHoverId := false
    dragActor := none
    dragOrigParent := false
    dragActorSource := none }

def finishAnimation : State :=
  if s.animationInProgress then { s with animationInProgress := false }.dragComplete else s

def cancelDragWithout : State :=
  { s with dragCancels := s.dragCancels + 1 }.dragComplete.emitDragEnd

def onDragActorDestroy : State :=
  let s := { s.finishAnimation with dragActor := none }
  if s.dragCancellable then s.cancelDragWithout else s

/-- `_onAnimationComplete` when there is no drag actor: no child can be removed, nor destroyed. -/
def onAnimationCompleteWithout : State :=
  if s.dragOrigParent then s.fault else s.emitDragEnd.finishAnimation

def removeActor (a : ℕ) : State :=
  { s with
    destroyed := a :: s.destroyed
    easing := s.easing.filter (·.1 ≠ a)
    scaling := s.scaling.filter (· ≠ a) }

def destroyDragActor (a : ℕ) : State :=
  let animated := s.easing.any (·.1 = a)
  let s := s.onDragActorDestroy.removeActor a
  if animated ∧ s.params.signalsDestroyed then s.onAnimationCompleteWithout else s

/-- `_onAnimationComplete`: the actor goes back to its parent, or is destroyed. -/
def onAnimationComplete : State :=
  match s.dragActor with
  | none => s.onAnimationCompleteWithout
  | some a =>
    let s :=
      if s.dragOrigParent then
        { s with inUiGroup := false, scaling := s.scaling.filter (· ≠ a) }
      else s.destroyDragActor a
    s.emitDragEnd.finishAnimation

def setProperty (a : ℕ) (p : Property) : State :=
  let s := if p = .scale then { s with scaling := s.scaling.filter (· ≠ a) } else s
  if (a, p) ∈ s.easing then { s with easing := s.easing.erase (a, p) }.onAnimationComplete else s

/-- `_animateDragEnd`. An ease first removes the transitions that it overwrites; if it makes none,
it is complete at once. The transition that tells is the first one. -/
def animateDragEnd (properties : List Property) (transition : Option Property) :
    State :=
  { s with animationInProgress := true }.withDragActor fun s a =>
    let s := properties.foldl (fun s p => setProperty s a p) s
    match transition with
    | none => s.onAnimationComplete
    | some p =>
      if a ∈ s.destroyed then s.onAnimationComplete else { s with easing := (a, p) :: s.easing }

def cancelDrag (transition : Option Property) : State :=
  match s.dragActor with
  | none => s.cancelDragWithout
  | some _ =>
    { s with dragCancels := s.dragCancels + 1 }.animateDragEnd [.position, .scale, .opacity] transition

/-- `_restoreDragActor`; `fades` says whether its ease has a transition. -/
def restoreDragActor (fades : Bool) : State :=
  s.withDragActor fun s a =>
    (s.setProperty a .position).withDragActor fun s a =>
      (s.setProperty a .scale).withDragActor fun s a =>
        (s.setProperty a .opacity).animateDragEnd [.opacity] (if fades then some .opacity else none)

def updateActorPosition : State :=
  s.withDragActor fun s a => s.setProperty a .position

def updateDragPosition : State :=
  s.withDragActor fun s a => { s.setProperty a .position with updateHoverId := true }

def handled (destroys : Bool) : State :=
  match s.dragActor with
  | none => s
  | some a => if destroys then s.destroyDragActor a else s

/-- The handlers are asked, as long as they answer `cont`; and whether all did. -/
def askMonitors {α : Type*} [DecidableEq α] (cont : α) : State → List (Handler α) → State × Bool
  | s, [] => (s, true)
  | s, h :: hs =>
    if h.answer = cont then askMonitors cont (s.handled h.destroys) hs
    else (s.handled h.destroys, false)

def handOver : State := if s.dragActor = none then s.fault else s

def handleDragOver : State → List (Handler DragMotionResult) → State
  | s, [] => s
  | s, h :: hs =>
    if h.answer = .cont then handleDragOver (s.handOver.handled h.destroys) hs
    else s.handOver.handled h.destroys

def updateDragHover (monitors targets : List (Handler DragMotionResult)) : State :=
  { s with updateHoverId := false }.withDragActor fun s _ =>
    match s.askMonitors DragMotionResult.cont monitors with
    | (s, true) => s.handleDragOver targets
    | (s, false) => s

def accepted (fades : Bool) : State :=
  match s.dragActor with
  | none => s.emitDragEnd.dragComplete
  | some a =>
    if s.inUiGroup then
      if s.params.restoreOnSuccess then s.restoreDragActor fades
      else (s.destroyDragActor a).emitDragEnd.dragComplete
    else s.emitDragEnd.dragComplete

/-- What `acceptDrop` of a target does, before it answers. -/
def undergo : Fate → State
  | .leaves => s
  | .takes => { s with inUiGroup := false }
  | .destroys => s.handled true

def acceptDrop (fades : Bool) (transition : Option Property) : State → List DropTarget → State
  | s, [] => s.cancelDrag transition
  | s, t :: ts =>
    let s := s.handOver.undergo t.fate
    if t.answer = .accepts then s.accepted fades else acceptDrop fades transition s ts

end State

structure Drop where
  monitors : List (Handler DragDropResult)
  targets : List DropTarget
  fades : Bool
  /-- The first transition when the actor snaps back. -/
  transition : Option Property

namespace State

def dragActorDropped (s : State) (d : Drop) : State :=
  s.withDragActor fun s _ =>
    match s.askMonitors DragDropResult.cont d.monitors with
    | (s, true) => { s with dragCancellable := false }.acceptDrop d.fades d.transition d.targets
    | (s, false) => s

end State

structure Gesture where
  granted : Bool
  source : Option DragActorSource
  large : Bool
  scales : Bool

namespace State

variable (s : State)

def takeDragActor : Option DragActorSource → State
  | some source =>
    { s with
      created := s.created + 1
      dragActor := some (s.created + 1)
      dragActorSource := some source
      dragOrigParent := false
      inUiGroup := true }
  | none =>
    { s with
      dragActor := some 0
      dragActorSource := none
      dragOrigParent := true
      inUiGroup := true }

def scaleDown (a : ℕ) (scales : Bool) : State :=
  let s := s.setProperty a .scale
  let s := if scales then { s with scaling := a :: s.scaling } else s.updateActorPosition
  s.withDragActor fun s _ => s

def gestureRecognized (g : Gesture) : State :=
  let s := { s with pushes := s.pushes + 1 }
  if g.granted then
    let s := { s with grab := true, dragBegins := s.dragBegins + 1 }
    (s.takeDragActor g.source).withDragActor fun s a =>
      (if g.source.isSome then s else s.setProperty a .scale).withDragActor fun s a =>
        (if s.params.dragActorOpacity then s.setProperty a .opacity else s).withDragActor fun s a =>
          let s := s.setProperty a .position
          if s.params.dragActorMaxSize ∧ g.large then
            s.withDragActor fun s a => s.scaleDown a g.scales
          else s
  else { s with pops := s.pops + 1 }

def destroyOther (a : ℕ) : State :=
  let animated := s.easing.any (·.1 = a)
  let s := s.removeActor a
  if animated ∧ s.params.signalsDestroyed then s.onAnimationComplete else s

end State

inductive Event where
  | gestureRecognized (g : Gesture)
  | motion
  | release (d : Drop)
  | escape (transition : Option Property)
  | updateDragHover (monitors targets : List (Handler DragMotionResult))
  | animationStopped (a : ℕ) (p : Property)
  | scaleFrame (a : ℕ)
  | scaleStopped (a : ℕ) (isFinished : Bool)
  | destroyDragActor
  | destroySource
  | destroyOrigParent
  | destroyOther (a : ℕ)

variable (s : State)

def step : Event → Option State
  | .gestureRecognized g =>
    if s.grab = false ∧ 0 ∉ s.destroyed then some (s.gestureRecognized g) else none
  | .motion => if s.grab then some s.updateDragPosition else none
  | .release d => if s.grab then some (s.dragActorDropped d) else none
  | .escape transition => if s.grab then some (s.cancelDrag transition) else none
  | .updateDragHover monitors targets =>
    if s.updateHoverId then some (s.updateDragHover monitors targets) else none
  | .animationStopped a p =>
    if (a, p) ∈ s.easing then some { s with easing := s.easing.erase (a, p) }.onAnimationComplete
    else none
  | .scaleFrame a => if a ∈ s.scaling then some s.updateActorPosition else none
  | .scaleStopped a isFinished =>
    if a ∈ s.scaling then
      let s := { s with scaling := s.scaling.erase a }
      some (if isFinished then s.updateActorPosition else s)
    else none
  | .destroyDragActor =>
    match s.dragActor with
    | none => none
    | some a => some (s.destroyDragActor a)
  | .destroySource =>
    match s.dragActorSource with
    | some .delegate => some { s with dragActorSource := none }
    | _ => none
  | .destroyOrigParent =>
    if s.dragOrigParent then some { s with dragOrigParent := false } else none
  | .destroyOther a =>
    if a ≤ s.created ∧ a ∉ s.destroyed ∧ s.dragActor ≠ some a then some (s.destroyOther a) else none

/-- The signal `drag-end` was emitted, and nothing is left of the drag. -/
def State.Over : Prop :=
  s.dragEnds = s.dragBegins ∧ s.grab = false ∧ s.updateHoverId = false ∧ s.dragActor = none

def State.GoesOn : Prop :=
  s.dragBegins = s.dragEnds + 1 ∧ s.grab = true ∧
    ∃ a, s.dragActor = some a ∧ (s.animationInProgress = true → ∃ p, (a, p) ∈ s.easing)

/-- **What a drag owes.** No handler met a null drag actor, each modal grab was released once, but
for that of a drag that goes on, and each other drag that began has ended, once. -/
structure Law : Prop where
  used : s.faults = 0
  released : s.pushes = s.pops + if s.grab then 1 else 0
  once : s.Over ∨ s.GoesOn

end Dnd
