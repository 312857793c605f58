import GnomeShellMobile.Runs.Basic
import Mathlib.Logic.Function.Basic
import Mathlib.Data.Int.Notation

/-!
# Batch — tasks, holds, and batches of tasks

`Task`, `Hold`, `Batch`, `ConsecutiveBatch` and `ConcurrentBatch` of `js/gdm/batch.js`. A tree of
batches is run from its top. What is being executed is a stack of calls, so that the functions
among the tasks can run anything in between: they release holds of other tasks, also their own.

* `Task`: the tree; a task is named by its path, the innermost index first.
* `State`: the objects (`_acquisitions`, the connected handlers, `_currentTaskIndex`), the stack
  of calls, and a record of what has happened.
* `step`: one call, or what the functions and the rest of the program do with their holds.
-/

namespace Batch

inductive Kind where
  | consecutive
  | concurrent
  deriving DecidableEq, Repr

inductive Task where
  | function
  | batch (kind : Kind) (tasks : List Task)

abbrev Path := List ℕ

namespace Task

def tasks : Task → List Task
  | function => []
  | batch _ ts => ts

def isConcurrent : Task → Bool
  | batch .concurrent _ => true
  | _ => false

def get (top : Task) : Path → Option Task
  | [] => some top
  | i :: p => (top.get p).bind fun t => t.tasks[i]?

def tasksAt (top : Task) (p : Path) : List Task := ((top.get p).map tasks).getD []

def concurrentAt (top : Task) (p : Path) : Bool := ((top.get p).map isConcurrent).getD false

end Task

/-- A `Hold`: one that a function made, or `this.hold` of a batch. -/
inductive Hold (η : Type) where
  | own (h : η)
  | batch (p : Path)
  deriving DecidableEq, Repr

/-- What is connected to the `release` signal of a hold: `this.nextTask()` or `this.hold.release()`
of the batch at `p`. -/
inductive Handler where
  | nextTask (p : Path)
  | release (p : Path)
  deriving DecidableEq, Repr

structure Connection (η : Type) where
  id : ℕ
  hold : Hold η
  handler : Handler
  deriving DecidableEq, Repr

inductive Call (η : Type) where
  /-- `process()` of the batch at `p`. -/
  | process (p : Path)
  /-- The current task of the batch at `p` is a function, which is running. -/
  | function (p : Path)
  /-- The rest of `process()`, once `runTask()` has returned. -/
  | returned (p : Path) (hold : Option (Hold η))
  | nextTask (p : Path)
  | release (h : Hold η)
  /-- A handler that the emission of `release` calls. -/
  | handler (c : Connection η)
  deriving DecidableEq, Repr

variable {η : Type} [DecidableEq η]

structure State (η : Type) where
  /-- `_acquisitions`; 0 for the hold of a batch that has not been started. -/
  acquisitions : Hold η → ℤ
  connections : List (Connection η)
  nextId : ℕ
  /-- `_currentTaskIndex`; `none` before `_start()`. -/
  index : Path → Option ℕ
  /-- The innermost call first. -/
  stack : List (Call η)
  /-- `acquire()` has thrown inside of a batch. -/
  threw : Bool
  /-- The tasks whose `run()` has been called. -/
  ran : List Path
  /-- What the `run()` of a task has returned. -/
  results : Path → Option (Option (Hold η))
  /-- The holds that have emitted `release`, the latest first. -/
  emitted : List (Hold η)

namespace State

variable (s : State η)

variable (h : Hold η)

def isAcquired : Bool := decide (0 < s.acquisitions h)

def setAcquisitions (n : ℤ) : State η :=
  { s with acquisitions := Function.update s.acquisitions h n }

def setStack (calls : List (Call η)) : State η := { s with stack := calls }

variable (p : Path)

def setIndex (i : ℕ) : State η :=
  { s with index := Function.update s.index p (some i) }

def setResult (r : Option (Hold η)) : State η :=
  { s with results := Function.update s.results p (some r) }

def connect (f : Handler) : State η :=
  { s with connections := s.connections ++ [⟨s.nextId, h, f⟩], nextId := s.nextId + 1 }

def disconnect (c : Connection η) : State η :=
  { s with connections := s.connections.erase c }

def start (rest : List (Call η)) : State η :=
  ((s.setAcquisitions (.batch p) 1).setIndex p 0).setStack (.process p :: rest)

/-- The current task of the batch at `p`. -/
def current : Path := (s.index p).getD 0 :: p

variable (top : Task)

/-- `runTask()`: up to the end of `run()` of the task, where that is a batch. -/
def runTask (p : Path) (rest : List (Call η)) (s : State η) : State η :=
  let q := s.current p
  match top.get q with
  | none => s.setStack (.returned p none :: rest)
  | some .function => { s with stack := .function p :: rest, ran := q :: s.ran }
  | some (.batch _ _) =>
    { s with ran := q :: s.ran }.start q (.returned p (some (.batch q)) :: rest)

def acquireUntilAfter (p : Path) (h : Hold η) (rest : List (Call η)) : State η :=
  if s.isAcquired h then
    if s.isAcquired (.batch p) then
      ((s.setAcquisitions (.batch p) (s.acquisitions (.batch p) + 1)).connect h
        (.release p)).setStack rest
    else { s with stack := [], threw := true }
  else s.setStack rest

/-- The record of what the current task of the batch at `p` has returned. -/
def record (top : Task) (p : Path) (hold : Option (Hold η)) : State η :=
  if (top.get (s.current p)).isSome then s.setResult (s.current p) hold else s

/-- `process()` of the two kinds of batches, once the current task has returned `hold`. -/
def afterTask (p : Path) (hold : Option (Hold η)) (rest : List (Call η))
    (s : State η) : State η :=
  let s := s.record top p hold
  match hold with
  | none => s.setStack (.nextTask p :: rest)
  | some h =>
    if top.concurrentAt p then s.acquireUntilAfter p h (.nextTask p :: rest)
    else if s.isAcquired h then (s.connect h (.nextTask p)).setStack rest
    else s.setStack (.nextTask p :: rest)

def nextTask (p : Path) (rest : List (Call η)) (s : State η) : State η :=
  let i := (s.index p).getD 0 + 1
  let s := s.setIndex p i
  if (top.tasksAt p).length ≤ i then s.setStack (.release (.batch p) :: rest)
  else s.setStack (.process p :: rest)

def handlers (h : Hold η) : List (Call η) :=
  (s.connections.filter (·.hold = h)).map .handler

/-- `release` is emitted: the handlers that are connected now are called in order. -/
def emit (h : Hold η) (rest : List (Call η)) (s : State η) : State η :=
  { s with stack := s.handlers h ++ rest, emitted := h :: s.emitted }

def release (h : Hold η) (rest : List (Call η)) (s : State η) : State η :=
  let s := s.setAcquisitions h (s.acquisitions h - 1)
  if s.acquisitions h = 0 then s.emit h rest else s.setStack rest

/-- A handler is called unless it was disconnected since the emission began; the first thing it
does is to disconnect itself. -/
def callHandler (c : Connection η) (rest : List (Call η)) (s : State η) : State η :=
  if c ∈ s.connections then
    match c.handler with
    | .nextTask p => (s.disconnect c).setStack (.nextTask p :: rest)
    | .release p => (s.disconnect c).setStack (.release (.batch p) :: rest)
  else s.setStack rest

/-- The innermost call is executed, up to the next call; `none` if it is that of a function. -/
def call (s : State η) : Option (State η) :=
  match s.stack with
  | [] => none
  | .function _ :: _ => none
  | .process p :: rest => some (s.runTask top p rest)
  | .returned p hold :: rest => some (s.afterTask top p hold rest)
  | .nextTask p :: rest => some (s.nextTask top p rest)
  | .release h :: rest => some (s.release h rest)
  | .handler c :: rest => some (s.callHandler c rest)

/-- The rest of the program runs: a function among the tasks, or what runs between the batches. -/
def Outside : Bool :=
  match s.stack with
  | [] => true
  | .function _ :: _ => true
  | _ => false

def new : State η where
  acquisitions
    | .own _ => 1
    | .batch _ => 0
  connections := []
  nextId := 0
  index _ := none
  stack := []
  threw := false
  ran := []
  results _ := none
  emitted := []

/-- `run()` of the batch at the top is called. -/
def run : State η := new.start [] []

end State

inductive Event (η : Type) where
  | call
  | returns (hold : Option η)
  /-- A function, or something else, releases a hold or acquires it once more. -/
  | release (h : η)
  | acquire (h : η)
  deriving DecidableEq, Repr

def step (top : Task) (s : State η) : Event η → Option (State η)
  | .call => s.call top
  | .returns hold =>
    match s.stack with
    | .function p :: rest => some (s.setStack (.returned p (hold.map .own) :: rest))
    | _ => none
  | .release h =>
    if s.Outside then some (s.setStack (.release (.own h) :: s.stack)) else none
  | .acquire h =>
    if s.Outside ∧ s.isAcquired (.own h) then
      some (s.setAcquisitions (.own h) (s.acquisitions (.own h) + 1))
    else none

end Batch
