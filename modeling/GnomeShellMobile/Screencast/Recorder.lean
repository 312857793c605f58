import Mathlib.Data.List.Basic

/-!
# Screencast — a recorder

`Recorder` of `js/dbusServices/screencast/screencastService.js`.

* The pipelines of a recorder are numbered as they are created; each has a watch on its bus for good.
* What becomes of the candidates of the list of pipelines comes with it.
* A promise is settled once; its `await` goes on later.
-/

namespace Screencast

inductive PipelineState where
  | init
  | starting
  | playing
  | flushing
  | stopped
  | error
deriving DecidableEq

inductive SessionState where
  | init
  | active
  | stopped
deriving DecidableEq

inductive Promise where
  | pending
  | settled (resolved : Bool)
  | done
deriving DecidableEq

def Promise.settle (resolved : Bool) : Promise → Promise
  | .pending => .settled resolved
  | promise => promise

inductive Candidate where
  | blocklisted
  | broken
  | refused
  | starts
deriving DecidableEq

inductive Message where
  | playing
  | eos
  | error
deriving DecidableEq

structure Recorder where
  sender : ℕ
  pipelineState : PipelineState
  sessionState : SessionState
  pipeline : Option ℕ
  created : ℕ
  pipelineConfigs : List Candidate
  startRequest : Bool
  stopRequest : Option ℕ
  /-- The promise of `startRecording`. -/
  start : Promise
  stops : List Promise
  watched : Bool
  /-- The service listens to `error`. -/
  listened : Bool
  /-- `PipeWireStreamAdded` was received. -/
  streamed : Bool
deriving DecidableEq

namespace Recorder

variable (r : Recorder)

def teardownPipeline : Recorder :=
  match r.pipeline with
  | none => r
  | some _ => { r with pipelineState := .stopped, pipeline := none }

def unwatchSender : Recorder := { r with watched := false }

def stopSession : Recorder :=
  if r.sessionState = .active then { r with sessionState := .stopped } else r

def settleStart (resolved : Bool) : Recorder :=
  if r.startRequest then { r with start := r.start.settle resolved, startRequest := false } else r

def settleStop (resolved : Bool) : Recorder :=
  match r.stopRequest with
  | none => r
  | some i => { r with stops := r.stops.modify i (Promise.settle resolved), stopRequest := none }

def bailOutOnError : Recorder :=
  ((r.teardownPipeline.unwatchSender.stopSession).settleStart false).settleStop false

def handleFatalPipelineError : Recorder :=
  bailOutOnError { r with pipelineState := .error }

/-- `_tryNextPipeline`; whether `error` is emitted. -/
def tryNextPipeline : List Candidate → Recorder → Recorder × Bool
  | [], r => ({ r with pipelineConfigs := [] }.handleFatalPipelineError, true)
  | .blocklisted :: configs, r => tryNextPipeline configs r
  | .broken :: configs, r => tryNextPipeline configs { r with pipeline := none }
  | .refused :: configs, r =>
    tryNextPipeline configs { r with pipeline := some r.created, created := r.created + 1 }
  | .starts :: configs, r =>
    ({ r with
      pipeline := some r.created
      created := r.created + 1
      pipelineConfigs := configs }, false)

/-- `PipeWireStreamAdded`. -/
def streamAdded (configs : List Candidate) : Recorder × Bool :=
  tryNextPipeline configs { r with pipelineState := .starting, streamed := true }

def senderVanished : Recorder × Bool := (r.bailOutOnError, true)

def onSessionClosed : Recorder × Bool :=
  if r.sessionState = .stopped then (r, false)
  else ({ r with sessionState := .stopped }.bailOutOnError, true)

def onBusMessage (p : ℕ) : Message → Recorder × Bool
  | .playing =>
    if r.pipelineState = .starting ∧ r.pipeline = some p then
      ({ r with pipelineState := .playing }.settleStart true, false)
    else (r, false)
  | .eos =>
    match r.pipelineState with
    | .init | .stopped | .error => (r, false)
    | .starting => tryNextPipeline r.pipelineConfigs r
    | .playing => (r.handleFatalPipelineError, true)
    | .flushing => ((r.teardownPipeline.unwatchSender.stopSession).settleStop true, false)
  | .error =>
    match r.pipelineState with
    | .init | .stopped | .error => (r, false)
    | .starting => tryNextPipeline r.pipelineConfigs r
    | .playing | .flushing => (r.handleFatalPipelineError, true)

/-- `stopRecording`. Without a pipeline it throws, which rejects the promise. -/
def stopRecording : Recorder :=
  if r.startRequest then { r with stops := r.stops ++ [.settled false] }
  else
    { r with
      stopRequest := some r.stops.length
      pipelineState := .flushing
      stops := r.stops ++ [if r.pipeline.isSome then .pending else .settled false] }

end Recorder

/-- A new recorder after `startRecording`; a call in there may throw. -/
def Recorder.new (sender : ℕ) (started : Bool) : Recorder where
  sender := sender
  pipelineState := .init
  sessionState := if started then .active else .init
  pipeline := none
  created := 0
  pipelineConfigs := []
  startRequest := true
  stopRequest := none
  start := if started then .pending else .settled false
  stops := []
  watched := true
  listened := false
  streamed := false

end Screencast
