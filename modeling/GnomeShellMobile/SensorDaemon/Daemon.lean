import GnomeShellMobile.Runs.Basic
import Mathlib.Data.Int.Notation
import Mathlib.Logic.Function.Basic

/-!
# SensorDaemon — claims of the sensors of `net.hadess.SensorProxy`

`js/dbusServices/sensorDaemon/sensorDaemon.js`. The daemon counts the clients of each sensor, claims
the sensor from the service for the first of them and releases it after the last one.

* `Sensor`, `Job`, `Request`, `Reply`, `World`: the daemon, its microtasks and the calls that are in
  flight to the service and back, which answers them in order.
* `claim` and `release` with what goes on after each `await`, under the words of the source.
* `step`: clients that run, the microtasks, the service and its replies.

Microtasks are run first in, first out, and the event loop only goes on when there are none left.
The service stays on the bus, so that `_proxy` is set all the time.
-/

namespace SensorDaemon

inductive SensorType where
  | ambientLight
  | proximity
  | compass
  | accelerometer
  deriving DecidableEq

/-- A promise of `ClaimLightAsync` or `ClaimProximityAsync`. -/
inductive ClaimPromise where
  /-- As many calls of `_claimSensor` await it as joined, and the one that made it. -/
  | pending (joined : ℕ)
  | settled (ok : Bool)
  deriving DecidableEq

structure Sensor where
  /-- Its entry in `_claimedSensors`. -/
  claimed : ℤ
  /-- Its entry in `_claimingSensors`. -/
  claiming : Option ℕ
  promise : ℕ → ClaimPromise
  promises : ℕ

/-- `await claimPromise` of a promise that is pending. -/
def Sensor.join (c : Sensor) (p joined : ℕ) : Sensor :=
  { c with promise := Function.update c.promise p (.pending (joined + 1)) }

/-- `this._claimingSensors.set(sensorType, claimPromise)` of a promise that is new. -/
def Sensor.newPromise (c : Sensor) : Sensor :=
  { claimed := c.claimed
    claiming := some c.promises
    promise := Function.update c.promise c.promises (.pending 0)
    promises := c.promises + 1 }

inductive Job where
  /-- `_claimSensor` goes on after its `await`: of its own promise (`first`) or one it joined. -/
  | claimSettled (sensor : SensorType) (first ok : Bool)
  /-- `claimAmbientLight` or `claimProximity` goes on. -/
  | claimReturned (sensor : SensorType) (ok : Bool)
  | told (sensor : SensorType) (ok : Bool)
  /-- Other code of a client goes on. -/
  | client
  deriving DecidableEq

inductive Request where
  | claim (sensor : SensorType) (promise : ℕ)
  | release (sensor : SensorType)
  deriving DecidableEq

inductive Reply where
  | claimed (sensor : SensorType) (promise : ℕ) (ok : Bool)
  | released (sensor : SensorType)
  deriving DecidableEq

def Request.sensor : Request → SensorType
  | .claim sensor _ => sensor
  | .release sensor => sensor

def Reply.sensor : Reply → SensorType
  | .claimed sensor _ _ => sensor
  | .released sensor => sensor

structure Counts where
  succeeded : ℕ
  told : ℕ
  /-- and the calls of `release`. -/
  released : ℕ
  /-- The replies to `Claim` that were no errors. -/
  acks : ℕ
  /-- The calls of `Release`. -/
  releases : ℕ
  deriving DecidableEq

structure World where
  sensors : SensorType → Sensor
  hasAmbientLight : Bool
  hasProximity : Bool
  active : Bool
  queue : List Job
  requests : List Request
  replies : List Reply
  remote : SensorType → Bool
  counts : SensorType → Counts

namespace World

def new (hasAmbientLight hasProximity : Bool) : World :=
  { sensors := fun _ => ⟨0, none, fun _ => .pending 0, 0⟩
    hasAmbientLight := hasAmbientLight
    hasProximity := hasProximity
    active := false
    queue := []
    requests := []
    replies := []
    remote := fun _ => false
    counts := fun _ => ⟨0, 0, 0, 0, 0⟩ }

variable (w : World)

variable (s : SensorType)

def setSensor (c : Sensor) : World :=
  { w with sensors := Function.update w.sensors s c }

def setCounts (k : Counts) : World :=
  { w with counts := Function.update w.counts s k }

def enqueue (jobs : List Job) : World := { w with queue := w.queue ++ jobs }

def send (r : Request) : World := { w with requests := w.requests ++ [r] }

def dropJob : World := { w with queue := w.queue.tail }

def dropReply : World := { w with replies := w.replies.tail }

def dropRequest : World := { w with requests := w.requests.tail }

def addClaimed (d : ℤ) : World :=
  w.setSensor s { w.sensors s with claimed := (w.sensors s).claimed + d }

def deleteClaiming : World :=
  w.setSensor s { w.sensors s with claiming := none }

def sensorAvailable : SensorType → Bool
  | .ambientLight => w.hasAmbientLight
  | .proximity => w.hasProximity
  | .compass => false
  | .accelerometer => false

/-- `await claimPromise` of a promise that another call has made. -/
def join (w : World) (s : SensorType) (p : ℕ) : World :=
  match (w.sensors s).promise p with
  | .pending joined => w.setSensor s ((w.sensors s).join p joined)
  | .settled ok => w.enqueue [.claimSettled s false ok]

/-- `_claimSensor` up to its first `await`. -/
def claimSensor : World :=
  if w.sensorAvailable s then
    match (w.sensors s).claiming with
    | some p => w.join s p
    | none => (w.setSensor s (w.sensors s).newPromise).send (.claim s (w.sensors s).promises)
  else w.enqueue [.claimReturned s false]

def countSucceeded : World :=
  w.setCounts s { w.counts s with succeeded := (w.counts s).succeeded + 1 }

def countTold : World :=
  w.setCounts s { w.counts s with told := (w.counts s).told + 1 }

def countReleased : World :=
  w.setCounts s { w.counts s with released := (w.counts s).released + 1 }

def countAck : World :=
  w.setCounts s { w.counts s with acks := (w.counts s).acks + 1 }

def countRelease : World :=
  w.setCounts s { w.counts s with releases := (w.counts s).releases + 1 }

def succeed : World := (w.addClaimed s 1).countSucceeded s

def claimSettled (first ok : Bool) : World :=
  if ok then
    let w := if first then w.deleteClaiming s else w
    (w.succeed s).enqueue [.claimReturned s true]
  else (w.deleteClaiming s).enqueue [.claimReturned s false]

def releaseSensor : World :=
  if (w.sensors s).claiming.isSome then w.enqueue [.client]
  else ((w.addClaimed s (-1)).send (.release s)).countRelease s

/-- What `claimProximity` and `claimAmbientLight` do. -/
def claim : World :=
  if (w.sensors s).claimed = 0 then w.claimSensor s
  else (w.succeed s).enqueue [.told s true]

/-- What `releaseProximity` and `releaseAmbientLight` do. -/
def release : World :=
  let claimed := (w.sensors s).claimed
  let w := w.countReleased s
  if claimed = 1 then w.releaseSensor s
  else if 1 < claimed then (w.addClaimed s (-1)).enqueue [.client]
  else w.enqueue [.client]

def claimProximity : World := w.claim .proximity

def releaseProximity : World := w.release .proximity

def claimAmbientLight : World := w.claim .ambientLight

def releaseAmbientLight : World := w.release .ambientLight

def runJob : Job → World
  | .claimSettled s first ok => w.claimSettled s first ok
  | .claimReturned s ok => w.enqueue [.told s ok]
  | .told s ok =>
    let w := if ok then w.countTold s else w
    { w with active := true }
  | .client => { w with active := true }

def deliver : Reply → World
  | .claimed s p ok =>
    let joined := match (w.sensors s).promise p with
      | .pending joined => joined
      | .settled _ => 0
    let w := if ok then w.countAck s else w
    let w := w.setSensor s { w.sensors s with
      promise := Function.update (w.sensors s).promise p (.settled ok) }
    w.enqueue (.claimSettled s true ok :: List.replicate joined (.claimSettled s false ok))
  | .released _ => w.enqueue [.client]

def serve (ok : Bool) : Request → World
  | .claim s p =>
    { w with
      remote := if ok then Function.update w.remote s true else w.remote
      replies := w.replies ++ [.claimed s p ok] }
  | .release s =>
    { w with
      remote := Function.update w.remote s false
      replies := w.replies ++ [.released s] }

end World

inductive Event where
  | start
  /-- It returns. -/
  | finish
  | defer
  | claimProximity
  | releaseProximity
  | claimAmbientLight
  | releaseAmbientLight
  | job
  | deliver
  | serve (ok : Bool)
  | hasAmbientLight (value : Bool)
  | hasProximity (value : Bool)
  deriving DecidableEq

def World.CanRelease (w : World) (s : SensorType) : Prop :=
  w.active ∧ (w.counts s).released < (w.counts s).told
deriving Decidable

def World.Loops (w : World) : Prop := w.active = false ∧ w.queue = []
deriving Decidable

def step (w : World) : Event → Option World
  | .start => if w.Loops then some { w with active := true } else none
  | .finish => if w.active then some { w with active := false } else none
  | .defer => if w.active then some (w.enqueue [.client]) else none
  | .claimProximity => if w.active then some w.claimProximity else none
  | .releaseProximity => if w.CanRelease .proximity then some w.releaseProximity else none
  | .claimAmbientLight => if w.active then some w.claimAmbientLight else none
  | .releaseAmbientLight =>
    if w.CanRelease .ambientLight then some w.releaseAmbientLight else none
  | .job =>
    match w.active, w.queue with
    | false, job :: _ => some (w.dropJob.runJob job)
    | _, _ => none
  | .deliver =>
    match w.replies with
    | [] => none
    | reply :: _ => if w.Loops then some (w.dropReply.deliver reply) else none
  | .serve ok =>
    match w.requests with
    | [] => none
    | request :: _ => some (w.dropRequest.serve ok request)
  | .hasAmbientLight value => some { w with hasAmbientLight := value }
  | .hasProximity value => some { w with hasProximity := value }

end SensorDaemon
