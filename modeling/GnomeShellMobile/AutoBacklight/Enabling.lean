import GnomeShellMobile.SensorDaemon.Awaiting

/-!
# AutoBacklight — enabling adaptive brightness

`_syncEnabled`, `inhibit` and `uninhibit` of
`js/dbusServices/sensorDaemon/autoBacklightBrightness.js`, the one client that claims the ambient
light sensor from the sensor daemon. What they do to the brightness itself is left out.

* `State`: the component and the sensor daemon it runs with.
* `step`: what is called over D-Bus, the changes that `_syncEnabled` is connected to, and all that
  the daemon, its service and its other clients do.

A service that leaves the bus is one that makes its sensors unavailable and refuses the claims in
flight.
-/

namespace AutoBacklight

open SensorDaemon

structure State where
  daemon : World
  inhibitedCount : ℤ
  ambientEnabled : Bool
  enabled : Bool
  /-- The calls of `_syncEnabled` that await `claimAmbientLight`. -/
  claims : ℕ

namespace State

variable (s : State)

def available : Bool := s.daemon.sensorAvailable .ambientLight

/-- What `_syncEnabled` compares `_enabled` with. -/
def wanted : Bool := s.inhibitedCount = 0 && s.ambientEnabled && s.available

def syncEnabled : State :=
  if s.enabled = s.wanted then s
  else if s.wanted then
    { s with daemon := s.daemon.claimAmbientLight, claims := s.claims + 1 }
  else { s with enabled := false, daemon := s.daemon.releaseAmbientLight }

/-- `_syncEnabled` goes on with what has become of its claim. -/
def claimReturned (ok : Bool) : State :=
  { s with enabled := s.enabled || ok, claims := s.claims - 1 }

def inhibit : State :=
  let s := { s with inhibitedCount := s.inhibitedCount + 1 }
  if s.inhibitedCount = 1 then s.syncEnabled else s

def uninhibit : State :=
  let s := { s with inhibitedCount := s.inhibitedCount - 1 }
  if s.inhibitedCount = 0 then s.syncEnabled else s

def setActive (active : Bool) : State :=
  { s with daemon := { s.daemon with active := active } }

def turn (f : State → State) : Option State :=
  if s.daemon.Loops then some ((f (s.setActive true)).setActive false) else none

def new (ambientEnabled hasAmbientLight hasProximity : Bool) : State :=
  let s : State :=
    { daemon := World.new hasAmbientLight hasProximity
      inhibitedCount := 0
      ambientEnabled := ambientEnabled
      enabled := false
      claims := 0 }
  (s.setActive true).syncEnabled.setActive false

end State

inductive Event where
  | inhibit
  | uninhibit
  /-- The signal `changed::ambient-enabled`. -/
  | ambientEnabled (value : Bool)
  /-- The signal `ambient-light-available-changed`. -/
  | ambientLightAvailable (value : Bool)
  | daemon (e : SensorDaemon.Event)
  deriving DecidableEq

def daemonStep (s : State) : SensorDaemon.Event → Option State
  | .claimAmbientLight => none
  | .releaseAmbientLight => none
  | .hasAmbientLight _ => none
  | e =>
    let next := (SensorDaemon.step s.daemon e).map fun w => { s with daemon := w }
    match e, s.daemon.queue with
    | .job, .told .ambientLight ok :: _ => next.map fun s => (s.claimReturned ok).setActive false
    | _, _ => next

def step (s : State) : Event → Option State
  | .inhibit => s.turn State.inhibit
  | .uninhibit => s.turn State.uninhibit
  | .ambientEnabled value => s.turn fun s => { s with ambientEnabled := value }.syncEnabled
  | .ambientLightAvailable value =>
    s.turn fun s => { s with daemon := { s.daemon with hasAmbientLight := value } }.syncEnabled
  | .daemon e => daemonStep s e

end AutoBacklight
