import GnomeShellMobile.Dict.Basic
import GnomeShellMobile.Runs.Basic
import Mathlib.Data.List.Count
import Mathlib.Logic.Function.Iterate

/-!
# CallsMonitoring — whether there is a call

`CallsMonitoring` of `js/dbusServices/sensorDaemon/callsMonitoring.js`, with its object manager. The
manager knows the one interface `org.gnome.Calls.Call`, so each of its objects has one proxy.

* `addProxy`, `removeProxy`, `onLoaded`: what the manager does when an object appears or goes, and
  when a load is over; the handlers run within these.
* `Law`: the recorded calls are those of the manager, and they decide `inCall`.
* `run_inCall_iff`: in which runs this holds.

Calls that are there when the first load ends are recorded without a handler of their properties,
and each further load records all calls again and connects the handlers of the manager again.
-/

namespace CallsMonitoring

structure CallProxy where
  path : String
  serial : ℕ
deriving DecidableEq

structure State where
  objects : Dict String CallProxy
  /-- The list of the interface in `_interfaces` of the manager. -/
  interfaces : List CallProxy
  serial : ℕ
  state : CallProxy → ℕ
  calls : List CallProxy
  inCall : Bool
  connected : ℕ
  /-- The proxies with a handler of `g-properties-changed`. -/
  handled : List CallProxy
  /-- The calls of `startMonitoring` and `stopMonitoring`. -/
  monitoring : List Bool

def State.new : State where
  objects := Dict.empty
  interfaces := []
  serial := 0
  state := fun _ => 0
  calls := []
  inCall := false
  connected := 0
  handled := []
  monitoring := []

def IsInCall (state : ℕ) : Prop := state = 1 ∨ state = 3 ∨ state = 4
deriving Decidable

def IsCallPath (path : String) : Prop := "/org/gnome/Calls/Call".toList.isPrefixOf path.toList
deriving Decidable

namespace State

/-! ## The calls -/

variable (s : State)

def updateInCall : State :=
  let inCall := s.calls.any fun c => decide (IsInCall (s.state c))
  if s.inCall = inCall then s
  else { s with inCall := inCall, monitoring := s.monitoring ++ [inCall] }

def addCall (proxy : CallProxy) : State :=
  { s with handled := s.handled ++ [proxy], calls := s.calls ++ [proxy] }.updateInCall

def removeCall (proxy : CallProxy) : State :=
  if proxy ∈ s.calls then { s with calls := s.calls.erase proxy }.updateInCall else s

variable (path : String)

def onObjectAdded (s : State) : State :=
  if IsCallPath path then
    match s.objects.get? path with
    | none => s
    | some proxy => s.addCall proxy
  else s

def onObjectRemoved (s : State) : State :=
  if IsCallPath path then
    match s.objects.get? path with
    | none => s
    | some proxy => s.removeCall proxy
  else s

/-- The handler of `g-properties-changed`, over the names of the properties. -/
def onPropertiesChanged (s : State) : List String → State
  | [] => s
  | prop :: props => if prop ≠ "State" then s else s.updateInCall.onPropertiesChanged props

def onLoaded : State :=
  let s := { s with calls := s.calls ++ s.interfaces }.updateInCall
  { s with connected := s.connected + 1 }

/-! ## The object manager -/

/-- `_addInterface` with the proxy initialized; a second proxy of one call has the same properties. -/
def addProxy (state : ℕ) : State :=
  let proxy : CallProxy := ⟨path, s.serial⟩
  let stored := s.objects.get? path
  let s := { s with
    objects := s.objects.set path proxy
    interfaces := s.interfaces ++ [proxy]
    serial := s.serial + 1
    state := Function.update s.state proxy ((stored.map s.state).getD state) }
  if stored = none then (onObjectAdded path)^[s.connected] s else s

def removeProxy : State :=
  match s.objects.get? path with
  | none => s
  | some proxy =>
    let s := { s with interfaces := s.interfaces.erase proxy }
    let s := (onObjectRemoved path)^[s.connected] s
    { s with objects := s.objects.erase path }

def receive (properties : Dict String ℕ) : State :=
  { s with
    state := fun c => if c.path = path then (properties.get? "State").getD (s.state c) else s.state c }

def propertiesChanged (properties : Dict String ℕ) : State :=
  (s.handled.filter (·.path = path)).foldl (fun s _ => s.onPropertiesChanged properties.keys)
    (s.receive path properties)

end State

inductive Event where
  | added (path : String) (state : ℕ)
  | removed (path : String)
  | propertiesChanged (path : String) (properties : Dict String ℕ)
  | loaded

variable (s : State)

def step : Event → Option State
  | .added path state => some (s.addProxy path state)
  | .removed path => some (s.removeProxy path)
  | .propertiesChanged path properties =>
    if s.objects.has path then some (s.propertiesChanged path properties) else none
  | .loaded => some s.onLoaded

def State.SomeInCall : Prop := ∃ e ∈ s.objects.entries, IsInCall (s.state e.2)

instance : Decidable s.SomeInCall := List.decidableBEx _ _

def State.records (path : String) : ℕ := s.calls.countP (·.path = path)

structure Law : Prop where
  inCall : s.inCall = true ↔ s.SomeInCall
  once : ∀ path, s.objects.has path → s.records path = 1
  live : ∀ c ∈ s.calls, s.objects.has c.path

def State.Noticed (path : String) (properties : Dict String ℕ) : Prop :=
  (∃ c ∈ s.handled, c.path = path) ∧ properties.keys.head? = some "State"
deriving Decidable

/-- Once a load was over:
* an object that is new has the path of a call, and the handlers are connected once;
* a call that goes is recorded by its present proxy;
* a change that matters is noticed;
* the first load finds one proxy for each object, and a later one no object. -/
def Careful : Event → Prop
  | .added path _ =>
    0 < s.connected → s.objects.has path ∨ IsCallPath path ∧ s.connected = 1
  | .removed path =>
    0 < s.connected → ∀ proxy ∈ s.objects.get? path, IsCallPath path ∧ proxy ∈ s.calls
  | .propertiesChanged path properties =>
    0 < s.connected →
      s.Noticed path properties ∨ ((s.receive path properties).SomeInCall ↔ s.SomeInCall)
  | .loaded =>
    if s.connected = 0 then ∀ c ∈ s.interfaces, s.objects.get? c.path = some c
    else s.interfaces = []

instance (e : Event) : Decidable (Careful s e) := by
  unfold Careful
  split <;> infer_instance

end CallsMonitoring
