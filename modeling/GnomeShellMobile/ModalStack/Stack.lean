import GnomeShellMobile.Runs.Basic
import GnomeShellMobile.Signals.Emitters
import Mathlib.Data.Int.Notation

/-!
# ModalStack — `pushModal` and `popModal`

The modal stack of `js/ui/main.js`. `pushModal` saves the key focus and the action mode on a stack
and `popModal` restores them, of any grab on the stack, and also when the actor that was pushed is
destroyed.

* `Record`, `State`: the stack, what it counts, and the handlers of `destroy` on the actors.
* `pushModal`, `popModal` and the two callbacks, under the words of the source.
* `destroy`: an actor emits `destroy`, and then has no key focus.
-/

namespace ModalStack

open Signals

/-- `Shell.ActionMode.NONE`. -/
def modeNone : ℕ := 0

/-- `Shell.ActionMode.NORMAL`. -/
def modeNormal : ℕ := 1

inductive Callback (α : Type) where
  /-- The handler of `pushModal` on the actor that is pushed. -/
  | actor (grab : ℕ)
  /-- The handler of `pushModal` on the key focus it saves. -/
  | prevFocus (prevFocus : α)
  deriving DecidableEq

/-- A record of `modalActorFocusStack`. -/
structure Record (α : Type) where
  actor : α
  grab : ℕ
  destroyId : ℕ
  prevFocus : Option α
  prevFocusDestroyId : Option ℕ
  actionMode : ℕ
  deriving DecidableEq

structure State (α : Type) where
  emitters : Emitters α (Callback α)
  /-- `modalActorFocusStack`; its top is the last one. -/
  stack : List (Record α)
  modalCount : ℤ
  actionMode : ℕ
  keyFocus : Option α
  /-- How often `disable_unredirect` was called and not undone. -/
  unredirectDisabled : ℤ

namespace State

variable {α : Type}

/-- No modal, the action mode `NORMAL` and any key focus. -/
def new (keyFocus : Option α) : State α := ⟨.empty, [], 0, modeNormal, keyFocus, 0⟩

variable [DecidableEq α]

variable (s : State α)

variable (grab : ℕ)

/-- The record of a grab with those above it, from `_findModal` on. -/
def fromGrab : List (Record α) := s.stack.dropWhile (·.grab ≠ grab)

def belowGrab : List (Record α) := s.stack.takeWhile (·.grab ≠ grab)

/-- The loop of `popModal` that shifts the focus chain up. It goes down the stack, so that each
record takes what the one below it had before. -/
def shiftUp (below : Record α) : List (Record α) → List (Record α)
  | [] => []
  | r :: rs =>
    { r with
      prevFocus := below.prevFocus
      prevFocusDestroyId := below.prevFocusDestroyId
      actionMode := below.actionMode } :: shiftUp r rs

/-- `if (record.prevFocus) record.prevFocus.disconnect(record.prevFocusDestroyId)`. -/
def disconnectPrevFocus (e : Emitters α (Callback α)) (record : Record α) :
    Emitters α (Callback α) :=
  match record.prevFocus with
  | none => e
  | some prevFocus => e.disconnect? prevFocus record.prevFocusDestroyId

def pushModal (stage : α) (s : State α) (actor : α) (grab : ℕ) (newActionMode : Option ℕ) :
    State α :=
  let actorDestroyId := s.emitters.nextId
  let emitters := s.emitters.connect actor "destroy" false (.actor grab)
  let prevFocus := s.keyFocus
  let (emitters, prevFocusDestroyId) :=
    match prevFocus with
    | none => (emitters, none)
    | some focus =>
      (emitters.connect focus "destroy" false (.prevFocus focus), some emitters.nextId)
  { emitters := emitters
    stack := s.stack ++ [⟨actor, grab, actorDestroyId, prevFocus, prevFocusDestroyId, s.actionMode⟩]
    modalCount := s.modalCount + 1
    actionMode := newActionMode.getD modeNone
    keyFocus := if actor = stage then none else some actor
    unredirectDisabled :=
      if s.modalCount = 0 then s.unredirectDisabled + 1 else s.unredirectDisabled }

/-- `popModal`, and whether it throws (`incorrect pop`). -/
def popModal : State α × Bool :=
  match s.fromGrab grab with
  | [] => ({ s with keyFocus := none, actionMode := modeNormal }, true)
  | record :: above =>
    let modalCount := s.modalCount - 1
    let emitters := s.emitters.disconnect record.actor record.destroyId
    let s' :=
      match above.getLast? with
      | none =>
        { s with
          emitters := disconnectPrevFocus emitters record
          actionMode := record.actionMode
          keyFocus := record.prevFocus
          stack := s.belowGrab grab
          modalCount := modalCount }
      | some t =>
        { s with
          emitters := disconnectPrevFocus emitters t
          stack := s.belowGrab grab ++ shiftUp record above
          modalCount := modalCount }
    if 0 < modalCount then (s', false)
    else
      ({ s' with unredirectDisabled := s'.unredirectDisabled - 1, actionMode := modeNormal }, false)

/-- The record that `findIndex` finds loses its `prevFocus`. -/
def clearPrevFocus (prevFocus : α) : List (Record α) → List (Record α)
  | [] => []
  | r :: rs =>
    if r.prevFocus = some prevFocus then { r with prevFocus := none } :: rs
    else r :: clearPrevFocus prevFocus rs

/-- The handlers of `destroy`. -/
def call : Callback α → State α
  | .actor grab => if s.fromGrab grab = [] then s else (s.popModal grab).1
  | .prevFocus prevFocus => { s with stack := clearPrevFocus prevFocus s.stack }

def setKeyFocus (keyFocus : Option α) : State α := { s with keyFocus := keyFocus }

/-- An actor is destroyed: it emits `destroy`, and it cannot keep the key focus. -/
def destroy (s : State α) (x : α) : State α :=
  let s := emit emitters call x "destroy" s
  if s.keyFocus = some x then s.setKeyFocus none else s

end State

/-! ## Runs -/

inductive Op (α : Type) where
  | pushModal (actor : α) (grab : ℕ) (actionMode : Option ℕ)
  | popModal (grab : ℕ)
  | setKeyFocus (keyFocus : Option α)
  | destroy (x : α)

variable {α : Type} [DecidableEq α]

def step (stage : α) (s : State α) : Op α → Option (State α)
  | .pushModal actor grab actionMode =>
    if s.fromGrab grab = [] then some (s.pushModal stage actor grab actionMode) else none
  | .popModal grab => if s.fromGrab grab = [] then none else some (s.popModal grab).1
  | .setKeyFocus keyFocus => some (s.setKeyFocus keyFocus)
  | .destroy x => some (s.destroy x)

end ModalStack
