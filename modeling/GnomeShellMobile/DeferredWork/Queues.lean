import GnomeShellMobile.Dict.Basic
import GnomeShellMobile.Runs.Basic

/-!
# DeferredWork — work that waits for an actor or for a timeout

The deferred work of `js/ui/main.js`.

* `State`: the two queues, the timer and the later, and what runs.
* `runDeferredWork`, `runBeforeRedrawQueue`, `runAllDeferredWork`: they stop where a callback is
  called, and go on when it returns.
* `initializeDeferredWork`, `queueDeferredWork`, with the handlers of the actor.
* `step`: callbacks may call all of these, and be interrupted by an error.

An error in a callback ends the run that called it; its later or source is then removed, for it did
not ask to be kept.
-/

namespace DeferredWork

inductive Running where
  | idle
  /-- `_runBeforeRedrawQueue`, at this index. -/
  | beforeRedraw (i : ℕ)
  | timer
  /-- `_runAllDeferredWork` goes on forever. -/
  | hangs
deriving DecidableEq

structure State where
  deferredWorkData : Dict ℕ ℕ
  deferredWorkQueue : List ℕ
  beforeRedrawQueue : List ℕ
  deferredWorkSequence : ℕ
  deferredTimeoutId : ℕ
  mapped : List ℕ
  destroyed : List ℕ
  /-- The runs of `_runBeforeRedrawQueue` that wait for a redraw. -/
  laters : ℕ
  /-- The sources that wait for their timeout. -/
  sources : List ℕ
  lastSource : ℕ
  running : Running
  errors : List String
  asked : List ℕ
  called : List ℕ
  /-- The works whose callbacks were called after the destruction of the actor. -/
  late : List ℕ

def State.new : State where
  deferredWorkData := Dict.empty
  deferredWorkQueue := []
  beforeRedrawQueue := []
  deferredWorkSequence := 0
  deferredTimeoutId := 0
  mapped := []
  destroyed := []
  laters := 0
  sources := []
  lastSource := 0
  running := .idle
  errors := []
  asked := []
  called := []
  late := []

namespace State

variable (s : State)

variable (workId : ℕ)

/-- `_runDeferredWork`, up to the callback; `none` if there is nothing to run. -/
def runDeferredWork : Option State :=
  match s.deferredWorkData.get? workId with
  | none => none
  | some actor =>
    if workId ∈ s.deferredWorkQueue then
      some { s with
        deferredWorkQueue := s.deferredWorkQueue.erase workId
        called := s.called ++ [workId]
        late := if actor ∈ s.destroyed then s.late ++ [workId] else s.late }
    else none

def runDeferredWorkReturns : State :=
  if s.deferredWorkQueue = [] ∧ 0 < s.deferredTimeoutId then
    { s with sources := s.sources.erase s.deferredTimeoutId, deferredTimeoutId := 0 }
  else s

/-- The loop of `_runAllDeferredWork`, and the end of the timeout's callback. -/
def runAllDeferredWork : State :=
  match s.deferredWorkQueue with
  | [] => { s with deferredTimeoutId := 0, running := .idle }
  | workId :: _ =>
    match s.runDeferredWork workId with
    | none => { s with running := .hangs }
    | some t => { t with running := .timer }

/-- The loop of `_runBeforeRedrawQueue` from the index `i`, with the entries from there. -/
def runBeforeRedrawQueue (s : State) : ℕ → List ℕ → State
  | _, [] => { s with beforeRedrawQueue := [], running := .idle }
  | i, workId :: workIds =>
    match s.runDeferredWork workId with
    | none => s.runBeforeRedrawQueue (i + 1) workIds
    | some t => { t with running := .beforeRedraw i }

def queueBeforeRedraw : State :=
  { s with
    beforeRedrawQueue := s.beforeRedrawQueue ++ [workId]
    laters := if (s.beforeRedrawQueue ++ [workId]).length = 1 then s.laters + 1 else s.laters }

def push : State :=
  if workId ∈ s.deferredWorkQueue then s
  else
    { s with
      deferredWorkQueue := s.deferredWorkQueue ++ [workId]
      asked := s.asked ++ [workId] }

/-- `GLib.timeout_add_seconds`. -/
def addTimeout : State :=
  { s with
    deferredTimeoutId := s.lastSource + 1
    sources := s.sources ++ [s.lastSource + 1]
    lastSource := s.lastSource + 1 }

def queueDeferredWork : State :=
  match s.deferredWorkData.get? workId with
  | none => { s with errors := s.errors ++ [s!"Invalid work id {workId}"] }
  | some actor =>
    let s := s.push workId
    if actor ∈ s.mapped then s.queueBeforeRedraw workId
    else if s.deferredTimeoutId = 0 then s.addTimeout
    else s

variable (actor : ℕ)

def initializeDeferredWork : State :=
  let workId := s.deferredWorkSequence + 1
  { s with
    deferredWorkSequence := workId
    deferredWorkData := s.deferredWorkData.set workId actor }.queueDeferredWork workId

def works : List ℕ :=
  (s.deferredWorkData.entries.filter (·.2 = actor)).map Prod.fst

/-- The handler of `notify::mapped` for one work of an actor. -/
def onMapped (actor workId : ℕ) : State :=
  if actor ∈ s.mapped ∧ workId ∈ s.deferredWorkQueue then s.queueBeforeRedraw workId else s

def setMapped (mapped : Bool) : State :=
  let s := { s with
    mapped := if mapped then s.mapped ++ [actor] else s.mapped.filter (· ≠ actor) }
  (s.works actor).foldl (fun s workId => s.onMapped actor workId) s

def onDestroy : State :=
  { s with
    deferredWorkQueue := s.deferredWorkQueue.erase workId
    deferredWorkData := s.deferredWorkData.erase workId }

def destroy : State :=
  let s := (s.works actor).foldl onDestroy s
  { s with mapped := s.mapped.filter (· ≠ actor), destroyed := s.destroyed ++ [actor] }

end State

inductive Event where
  | initializeWork (actor : ℕ)
  | queue (workId : ℕ)
  | setMapped (actor : ℕ) (mapped : Bool)
  | destroy (actor : ℕ)
  | beforeRedraw
  | timer (source : ℕ)
  | returns
  | throws
deriving DecidableEq

variable (s : State)

def step : Event → Option State
  | .initializeWork actor => some (s.initializeDeferredWork actor)
  | .queue workId => some (s.queueDeferredWork workId)
  | .setMapped actor mapped =>
    -- the property is notified when it changes, and a destroyed actor has no handlers
    if actor ∉ s.destroyed ∧ (mapped = true ↔ actor ∉ s.mapped) then some (s.setMapped actor mapped)
    else none
  | .destroy actor => if actor ∉ s.destroyed then some (s.destroy actor) else none
  | .beforeRedraw =>
    if s.running = .idle ∧ 0 < s.laters then
      some ({ s with laters := s.laters - 1 }.runBeforeRedrawQueue 0 s.beforeRedrawQueue)
    else none
  | .timer source =>
    if s.running = .idle ∧ source ∈ s.sources then
      some { s with sources := s.sources.erase source }.runAllDeferredWork
    else none
  | .returns =>
    match s.running with
    | .beforeRedraw i =>
      let t := s.runDeferredWorkReturns
      some (t.runBeforeRedrawQueue (i + 1) (t.beforeRedrawQueue.drop (i + 1)))
    | .timer => some s.runDeferredWorkReturns.runAllDeferredWork
    | _ => none
  | .throws =>
    match s.running with
    | .beforeRedraw _ | .timer => some { s with running := .idle }
    | _ => none

/-- The entries that a run before the redraw, waiting or going on, will still go through. -/
def State.ahead : List ℕ :=
  match s.running with
  | .beforeRedraw i => s.beforeRedrawQueue.drop (i + 1)
  | _ => if 0 < s.laters then s.beforeRedrawQueue else []

def State.TimerPending : Prop := s.sources ≠ [] ∨ s.running = .timer

structure Law : Prop where
  nodup : s.deferredWorkQueue.Nodup
  live : ∀ w ∈ s.deferredWorkQueue, ∃ a, s.deferredWorkData.get? w = some a ∧ a ∉ s.destroyed
  reached : ∀ w ∈ s.deferredWorkQueue, w ∈ s.ahead ∨ s.TimerPending
  mapped : ∀ w ∈ s.deferredWorkQueue, ∀ a ∈ s.mapped, s.deferredWorkData.get? w = some a →
    w ∈ s.ahead
  once : ∀ w, s.deferredWorkData.has w →
    s.asked.count w = s.called.count w + s.deferredWorkQueue.count w
  late : s.late = []
  ends : s.running ≠ .hangs

/-- Nothing keeps further work from being scheduled: where a queue or a timer is taken for
scheduled, it is. -/
structure Unblocked : Prop where
  redraw : s.beforeRedrawQueue ≠ [] → 0 < s.laters ∨ ∃ i, s.running = .beforeRedraw i
  timer : s.deferredTimeoutId ≠ 0 → s.TimerPending

end DeferredWork
