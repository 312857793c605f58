import GnomeShellMobile.Dict.Basic
import GnomeShellMobile.Signals.Emitters
import Mathlib.Data.Int.Notation

/-!
# SignalTracker — handlers that belong to an object

`js/misc/signalTracker.js`. `connectObject` connects handlers to signals of an owner and associates
them with another object, so that they can be disconnected together, and are when either of the two
is destroyed.

* `Objects`: what is known of the objects; `State`: the emitters, the trackers and the manager.
* `connectObject`, `disconnectObject` and the functions of `SignalTracker`, under their names.
* `run`: any sequence of these calls and of emissions of `destroy`.

The handlers that are passed in do not call these functions while an object is destroyed.
-/

namespace SignalTracker

open Signals

structure Objects (ο : Type) where
  hasDestroySignal : ο → Bool
  /-- `instanceof GObject.Object`. -/
  isGObject : ο → Bool
  /-- `connect` of the object takes the name of the signal. -/
  hasSignal : ο → String → Bool
  globalThis : ο

structure Pair where
  signalName : String
  handler : ℕ
  flags : Option ℤ
  deriving DecidableEq

inductive Error where
  | invalidFlag (flags : ℤ)
  /-- `Swapped signals are not supported`. -/
  | swapped
  | noSignal (signalName : String)
  deriving DecidableEq

inductive Callback (ο : Type) where
  /-- A handler passed to `connectObject`, with the object it is tracked for, which the code does
  not keep here. -/
  | handler (handler : ℕ) (obj : ο)
  | clear (tracker : ℕ)
  /-- `() => this.untrack(obj)`. -/
  | untrack (tracker : ℕ) (obj : ο)
  deriving DecidableEq

def Callback.isFor {ο : Type} [DecidableEq ο] (obj : ο) : Callback ο → Bool
  | handler _ obj' => obj' = obj
  | _ => false

/-- `SignalData`; a `destroyId` of 0 is `none`. -/
structure SignalData where
  ownerSignals : List ℕ
  destroyId : Option ℕ

structure Tracker (ο : Type) where
  owner : Option ο
  ownerDestroyId : Option ℕ
  map : Dict ο SignalData

/-- The emitters, and the `SignalManager` with all trackers there have been. -/
structure State (ο : Type) where
  emitters : Emitters ο (Callback ο)
  signalTrackers : ο → Option ℕ
  trackers : ℕ → Tracker ο
  nextTracker : ℕ

namespace State

variable {ο : Type}

def new : State ο := ⟨.empty, fun _ => none, fun _ => ⟨none, none, .empty⟩, 0⟩

variable [DecidableEq ο]

def connect (s : State ο) (x : ο) (signalName : String) (after : Bool) (callback : Callback ο) :
    State ο :=
  { s with emitters := s.emitters.connect x signalName after callback }

variable (s : State ο)

def disconnectSignals (x : ο) (ids : List ℕ) : State ο :=
  { s with emitters := s.emitters.disconnectAll x ids }

def disconnectSignal (x : ο) (id : Option ℕ) : State ο :=
  { s with emitters := s.emitters.disconnect? x id }

def setTracker (t : ℕ) (tracker : Tracker ο) : State ο :=
  { s with trackers := Function.update s.trackers t tracker }

def setMap (t : ℕ) (map : Dict ο SignalData) : State ο :=
  s.setTracker t { s.trackers t with map := map }

variable (env : Objects ο)

def getSignalTracker (s : State ο) (obj : ο) : State ο × ℕ :=
  match s.signalTrackers obj with
  | some t => (s, t)
  | none =>
    let t := s.nextTracker
    let (s, ownerDestroyId) :=
      if env.hasDestroySignal obj then
        (s.connect obj "destroy" true (.clear t), some s.emitters.nextId)
      else (s, none)
    ({ s.setTracker t ⟨some obj, ownerDestroyId, .empty⟩ with
        signalTrackers := Function.update s.signalTrackers obj (some t)
        nextTracker := t + 1 }, t)

variable (t : ℕ)

def getSignalData (obj : ο) : State ο × SignalData :=
  match (s.trackers t).map.get? obj with
  | some data => (s, data)
  | none =>
    let data := ⟨[], none⟩
    (s.setMap t ((s.trackers t).map.set obj data), data)

def trackDestroy (obj : ο) : State ο :=
  let (s, signalData) := s.getSignalData t obj
  if signalData.destroyId.isSome then s
  else
    let destroyId := s.emitters.nextId
    let s := s.connect obj "destroy" true (.untrack t obj)
    s.setMap t ((s.trackers t).map.set obj { signalData with destroyId := some destroyId })

def track (s : State ο) (t : ℕ) (obj : ο) (handlerIds : List ℕ) : State ο :=
  let s := if env.hasDestroySignal obj then s.trackDestroy t obj else s
  let (s, signalData) := s.getSignalData t obj
  s.setMap t ((s.trackers t).map.set obj
    { signalData with ownerSignals := signalData.ownerSignals ++ handlerIds })

def removeTracker : State ο :=
  match (s.trackers t).owner with
  | none => s
  | some owner =>
    let s := s.disconnectSignal owner (s.trackers t).ownerDestroyId
    { s.setTracker t { s.trackers t with ownerDestroyId := none, owner := none } with
      signalTrackers := Function.update s.signalTrackers owner none }

def untrack (obj : ο) : State ο :=
  let (s, data) := s.getSignalData t obj
  let s := s.setMap t ((s.trackers t).map.erase obj)
  match (s.trackers t).owner with
  -- a TypeError, as the tracker has been removed
  | none => s
  | some owner =>
    let s := s.disconnectSignals owner data.ownerSignals
    let s := s.disconnectSignal obj data.destroyId
    if (s.trackers t).map.size = 0 then s.removeTracker t else s

/-- `clear`. The entry of the object is all that `untrack` takes out of the map, so that `forEach`
comes to every object that is in it at first. -/
def clear : State ο :=
  (s.trackers t).map.keys.foldl (fun s obj => s.untrack t obj) s

def getParams (p : Pair) : Except Error ℤ :=
  match p.flags with
  | none => .ok 0
  | some flags =>
    if flags % 4 = 0 then .error (.invalidFlag flags)
    else if 2 ≤ flags % 4 then .error .swapped
    else .ok flags

/-- The loop of `connectObject` over the pairs; those before one that throws are connected. -/
def connectSignals (env : Objects ο) (thisObj obj : ο) :
    List Pair → State ο → List ℕ → State ο × Except Error (List ℕ)
  | [], s, signalIds => (s, .ok signalIds)
  | p :: ps, s, signalIds =>
    match getParams p with
    | .error e => (s, .error e)
    | .ok flags =>
      if env.hasSignal thisObj p.signalName then
        let after := flags % 2 = 1 ∧ env.isGObject thisObj
        connectSignals env thisObj obj ps
          (s.connect thisObj p.signalName after (.handler p.handler obj))
          (signalIds ++ [s.emitters.nextId])
      else (s, .error (.noSignal p.signalName))

def connectObject (s : State ο) (thisObj : ο) (pairs : List Pair)
    (obj : Option ο) : State ο × Except Error Unit :=
  let obj := obj.getD env.globalThis
  match connectSignals env thisObj obj pairs s [] with
  | (s, .error e) => (s, .error e)
  | (s, .ok signalIds) =>
    let (s, tracker) := s.getSignalTracker env thisObj
    (s.track env tracker obj signalIds, .ok ())

def disconnectObject (thisObj obj : ο) : State ο :=
  match s.signalTrackers thisObj with
  | none => s
  | some t => s.untrack t obj

def call : Callback ο → State ο
  | .handler .. => s
  | .clear t => s.clear t
  | .untrack t obj => s.untrack t obj

def destroy (env : Objects ο) (s : State ο) (x : ο) : State ο :=
  if env.hasDestroySignal x then emit State.emitters call x "destroy" s else s

end State

/-! ## Runs -/

inductive Op (ο : Type) where
  | connectObject (thisObj : ο) (pairs : List Pair) (obj : Option ο)
  | disconnectObject (thisObj obj : ο)
  | destroy (x : ο)

variable {ο : Type} [DecidableEq ο]

def perform (env : Objects ο) (s : State ο) : Op ο → State ο
  | .connectObject thisObj pairs obj => (s.connectObject env thisObj pairs obj).1
  | .disconnectObject thisObj obj => s.disconnectObject thisObj obj
  | .destroy x => s.destroy env x

def run (env : Objects ο) (ops : List (Op ο)) : State ο := ops.foldl (perform env) .new

namespace State

variable (s : State ο)

/-- The handlers connected to signals of `owner` for `obj`. -/
def handlersFor (owner obj : ο) : List (Handler (Callback ο)) :=
  (s.emitters.handlers owner).filter fun h => h.callback.isFor obj

def data? (owner obj : ο) : Option SignalData :=
  (s.signalTrackers owner).bind fun t => (s.trackers t).map.get? obj

def Records (owner obj : ο) : Prop := (s.data? owner obj).isSome
deriving Decidable

end State

end SignalTracker
