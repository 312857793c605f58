import GnomeShellMobile.Dict.Basic
import GnomeShellMobile.Runs.Basic
import GnomeShellMobile.Screencast.Ends

/-!
# Screencast — the service

`ScreencastService` of `js/dbusServices/screencast/screencastService.js`.

* A recorder is known by its number; `answers` is what was returned to the callers.
* A call that creates no recorder changes nothing; those are left out.
* What follows an `await` is an event of its own.
-/

namespace Screencast

inductive Signal where
  | streamAdded (configs : List Candidate)
  | senderVanished
  | sessionClosed
  | message (p : ℕ) (message : Message)
deriving DecidableEq

/-- The stream is added once, and the sender is watched up to `_unwatchSender`. -/
def Recorder.on (r : Recorder) : Signal → Option (Recorder × Bool)
  | .streamAdded configs => if r.streamed then none else some (r.streamAdded configs)
  | .senderVanished => if r.watched then some r.senderVanished else none
  | .sessionClosed => some r.onSessionClosed
  | .message p message => if p < r.created then some (r.onBusMessage p message) else none

inductive Request where
  | start (id : ℕ)
  | stop (id i : ℕ)
deriving DecidableEq

structure State where
  recorders : List Recorder
  registered : Dict ℕ ℕ
  holds : ℕ
  answers : List Request

namespace State

def new : State where
  recorders := []
  registered := Dict.empty
  holds := 0
  answers := []

variable (s : State)

variable (sender : ℕ)

def removeRecorder : State :=
  match s.registered.get? sender with
  | none => s
  | some _ => { s with
      registered := s.registered.erase sender
      holds := if (s.registered.erase sender).size = 0 then s.holds - 1 else s.holds }

def addRecorder (sender id : ℕ) : State := { s with
  registered := s.registered.set sender id
  holds := if (s.registered.set sender id).size = 1 then s.holds + 1 else s.holds }

/-- `ScreencastAsync` and `ScreencastAreaAsync`. -/
def screencast (started : Bool) : State :=
  match s.registered.get? sender with
  | some _ => s
  | none =>
    { s with recorders := s.recorders ++ [Recorder.new sender started] }.addRecorder sender
      s.recorders.length

def startSettled (id : ℕ) (r : Recorder) (resolved : Bool) : State :=
  let t := { s with
    recorders := s.recorders.set id { r with start := .done, listened := resolved || r.listened }
    answers := s.answers ++ [.start id] }
  if resolved then t else t.removeRecorder r.sender

def stopScreencast : State :=
  match s.registered.get? sender with
  | none => s
  | some id => { s with recorders := s.recorders.modify id Recorder.stopRecording }

def stopSettled (id i : ℕ) (r : Recorder) : State :=
  let t := { s with
    recorders := s.recorders.set id { r with stops := r.stops.set i .done }
    answers := s.answers ++ [Request.stop id i] }
  t.removeRecorder r.sender

/-- The recorder reacts, and the service to its `error`. -/
def react (id : ℕ) (r : Recorder) (emitted : Bool) : State :=
  let t := { s with recorders := s.recorders.set id r }
  if emitted ∧ r.listened then t.removeRecorder r.sender else t

end State

inductive Event where
  | screencast (sender : ℕ) (started : Bool)
  | stopScreencast (sender : ℕ)
  | signal (id : ℕ) (signal : Signal)
  | startSettled (id : ℕ)
  | stopSettled (id i : ℕ)
deriving DecidableEq

def Event.recorder : Event → Option ℕ
  | .screencast _ _ | .stopScreencast _ => none
  | .signal id _ | .startSettled id | .stopSettled id _ => some id

variable (s : State)

def step : Event → Option State
  | .screencast sender started => some (s.screencast sender started)
  | .stopScreencast sender => some (s.stopScreencast sender)
  | .signal id signal =>
    (s.recorders[id]?).bind fun r => (r.on signal).map fun (r', emitted) => s.react id r' emitted
  | .startSettled id =>
    (s.recorders[id]?).bind fun r =>
      match r.start with
      | .settled resolved => some (s.startSettled id r resolved)
      | _ => none
  | .stopSettled id i =>
    (s.recorders[id]?).bind fun r =>
      match r.stops[i]? with
      | some (.settled _) => some (s.stopSettled id i r)
      | _ => none

structure Law : Prop where
  active : ∀ (id : ℕ) (r : Recorder), s.recorders[id]? = some r → r.sessionState = .active →
    s.registered.get? r.sender = some id
  settled : ∀ (id : ℕ) (r : Recorder), s.recorders[id]? = some r → r.sessionState ≠ .active →
    r.start ≠ .pending ∧ .pending ∉ r.stops
  once : s.answers.Nodup
  held : s.holds = if s.registered.size = 0 then 0 else 1

structure Kept (e : Event) (t : State) : Prop where
  law : Law t
  registered : ∀ sender id, s.registered.get? sender = some id →
    t.registered.get? sender = some id ∨
      t.registered.get? sender = none ∧ e.recorder = some id
  abandoned : ∀ (id p : ℕ) (message : Message) (r : Recorder),
    e = .signal id (.message p message) → s.recorders[id]? = some r → r.pipeline ≠ some p →
    ∃ r', t.recorders[id]? = some r' ∧ r'.pipeline = r.pipeline ∧
      r'.pipelineState = r.pipelineState

/-- The recorders of a sender do not wait for anything when it gets another one, a stop can be
settled, and messages come from the pipelines of the recorders. -/
def Orderly : Event → Prop
  | .screencast sender _ => s.registered.get? sender = none →
    ∀ r ∈ s.recorders, r.sender = sender → r.Finished
  | .stopScreencast sender =>
    ∀ id ∈ s.registered.get? sender, ∀ r ∈ s.recorders[id]?, r.Stoppable
  | .signal id (.message p message) => ∀ r ∈ s.recorders[id]?, r.Current p message
  | _ => True

instance (r : Recorder) : Decidable r.Finished := inferInstanceAs (Decidable (_ ∧ _))

instance (e : Event) : Decidable (Orderly s e) := by
  unfold Orderly
  split <;> infer_instance

end Screencast
