import GnomeShellMobile.Runs.Basic
import GnomeShellMobile.Dict.Basic

/-!
# ObjectManager — the proxies of a remote object tree

The two maps of the `ObjectManager`, the asynchronous calls that it waits for, and the remote
side: the owner of the name and the interfaces it exports. Messages of one owner arrive in the
order in which they were sent, so what is exported changes here when the signal for it arrives,
and the reply of `GetManagedObjects` says what is exported when it arrives.

`onLoaded`, which only tells the creator of the manager that loading is over, is left out.
-/

namespace ObjectManager

abbrev ObjectPath := String
abbrev InterfaceName := String

/-- A `Gio.DBusProxy`. Two proxies for the same interface are told apart by their serial. -/
structure Proxy where
  objectPath : ObjectPath
  interfaceName : InterfaceName
  serial : Nat
  deriving DecidableEq, Repr

inductive Signal where
  | objectAdded (objectPath : ObjectPath)
  | objectRemoved (objectPath : ObjectPath)
  | interfaceAdded (interfaceName : InterfaceName) (proxy : Proxy)
  | interfaceRemoved (interfaceName : InterfaceName) (proxy : Option Proxy)
  deriving DecidableEq, Repr

/-- `_managerProxy`, by the outcome of its `init_async`. -/
inductive ManagerProxy where
  | initializing
  | ready
  | failed
  deriving DecidableEq, Repr

structure State where
  /-- the keys of `_interfaceInfos`: the interfaces that are known -/
  interfaceInfos : List InterfaceName
  objects : Dict ObjectPath (Dict InterfaceName Proxy)
  interfaces : Dict InterfaceName (List Proxy)
  managerProxy : ManagerProxy
  /-- the proxies whose `init_async` is awaited by `_addInterface` -/
  inits : List Proxy
  /-- the calls of `GetManagedObjects` that are awaited, each with the owner it was sent to -/
  loads : List Nat
  serial : Nat
  emitted : List Signal
  owner : Option Nat
  owners : Nat
  exports : List (ObjectPath × InterfaceName)

namespace State

def new (knownInterfaces : List InterfaceName) : State where
  interfaceInfos := knownInterfaces
  objects := .empty
  interfaces := .empty
  managerProxy := .initializing
  inits := []
  loads := []
  serial := 0
  emitted := []
  owner := none
  owners := 0
  exports := []

variable (s : State)

def emit (g : Signal) : State := { s with emitted := s.emitted ++ [g] }

variable (path : ObjectPath)

def getProxy (name : InterfaceName) : Option Proxy :=
  (s.objects.get? path).bind fun object => object.get? name

variable (name : InterfaceName)

def getProxiesForInterface : List Proxy :=
  (s.interfaces.get? name).getD []

def addInterface (name : InterfaceName) : State :=
  if name ∈ s.interfaceInfos then
    { s with inits := s.inits ++ [⟨path, name, s.serial⟩], serial := s.serial + 1 }
  else s

/-- `_addInterface` after a successful `init_async` -/
def addProxy (proxy : Proxy) : State :=
  let isNewObject := s.objects.get? proxy.objectPath = none
  let object := (s.objects.get? proxy.objectPath).getD .empty
  let s := { s with
    objects := s.objects.set proxy.objectPath (object.set proxy.interfaceName proxy)
    interfaces := s.interfaces.set proxy.interfaceName
      (s.getProxiesForInterface proxy.interfaceName ++ [proxy]) }
  (if isNewObject then s.emit (.objectAdded proxy.objectPath) else s).emit
    (.interfaceAdded proxy.interfaceName proxy)

def spliceProxy (proxies : List Proxy) : Option Proxy → List Proxy
  | none => proxies
  | some proxy => proxies.erase proxy

/-- A list of `_interfaces` that has become empty is deleted. -/
def setProxies (proxies : List Proxy) : State :=
  if proxies = [] then { s with interfaces := s.interfaces.erase name }
  else { s with interfaces := s.interfaces.set name proxies }

def unlistProxy (proxy : Option Proxy) : State :=
  match s.interfaces.get? name with
  | none => s
  | some proxies => s.setProxies name (spliceProxy proxies proxy)

def removeInterface (name : InterfaceName) : State :=
  match s.objects.get? path with
  | none => s
  | some object =>
    let s := (s.unlistProxy name (object.get? name)).emit (.interfaceRemoved name (object.get? name))
    if 1 < object.size then { s with objects := s.objects.set path (object.erase name) }
    else { s.emit (.objectRemoved path) with objects := s.objects.erase path }

/-- The inner loop of `_onNameVanished`, over the interface names `names` of an object. -/
def removeInterfaces (names : List InterfaceName) : State :=
  names.foldl
    (fun s name => if (s.getProxy path name).isSome then s.removeInterface path name else s) s

/-- The body of the outer loop of `_onNameVanished`. -/
def removeObject : State :=
  match s.objects.get? path with
  | none => s
  | some object => s.removeInterfaces path object.keys

def onNameVanished : State := s.objects.keys.foldl removeObject s

/-- `_onNameAppeared` up to the `await` of `GetManagedObjects` -/
def onNameAppeared (owner : Nat) : State := { s with loads := s.loads ++ [owner] }

/-- `_onNameAppeared` with a reply -/
def addObjects (objects : List (ObjectPath × InterfaceName)) : State :=
  objects.foldl (fun s object => s.addInterface object.1 object.2) s

/-- `_initManagerProxy` after its `await`. The signals are connected from here on. -/
def initManagerProxy : State :=
  let s := { s with managerProxy := .ready }
  -- without known interfaces the owner of the name is not watched
  if s.interfaceInfos = [] then s
  else
    match s.owner with
    | none => s
    | some owner => s.onNameAppeared owner

def watchesName : Bool := s.managerProxy = .ready ∧ s.interfaceInfos ≠ []

/-! ## What happens outside -/

/-- The `i`-th `init_async` is over. -/
def endInit (i : Nat) : State := { s with inits := s.inits.eraseIdx i }

/-- The `i`-th call of `GetManagedObjects` is over. -/
def endLoad (i : Nat) : State := { s with loads := s.loads.eraseIdx i }

def addExports (added : List (ObjectPath × InterfaceName)) : State :=
  { s with exports := s.exports ++ added }

def removeExports (names : List InterfaceName) : State :=
  { s with exports := s.exports.filter fun e => ¬ (e.1 = path ∧ e.2 ∈ names) }

def setOwner (exports : List (ObjectPath × InterfaceName)) : State :=
  { s with owner := some s.owners, owners := s.owners + 1, exports := exports }

def loseOwner : State := { s with owner := none, exports := [] }

def onInterfacesAdded (added : List (ObjectPath × InterfaceName)) : State :=
  if s.managerProxy = .ready then s.addObjects added else s

def onInterfacesRemoved (names : List InterfaceName) : State :=
  if s.managerProxy = .ready then names.foldl (fun s name => s.removeInterface path name) s else s

/-- The handler of `notify::g-name-owner` -/
def onNameOwner : State :=
  if s.watchesName then
    match s.owner with
    | some owner => s.onNameAppeared owner
    | none => s.onNameVanished
  else s

end State

/-- What happens outside: the outcomes of the calls that are awaited, and the remote side. -/
inductive Event where
  /-- `init_async` of the manager's proxy is over -/
  | managerInit (ok : Bool)
  /-- the `i`-th of the proxies being initialized is, or fails to be -/
  | initDone (i : Nat) (ok : Bool)
  /-- the `i`-th call of `GetManagedObjects` has a reply, or an error or a reply without objects -/
  | loadDone (i : Nat) (ok : Bool)
  | interfacesAdded (path : ObjectPath) (names : List InterfaceName)
  | interfacesRemoved (path : ObjectPath) (names : List InterfaceName)
  /-- the name is owned again, by someone who exports `exports` -/
  | nameAppeared (exports : List (ObjectPath × InterfaceName))
  | nameVanished
  deriving DecidableEq, Repr

open State

def step (s : State) : Event → Option State
  | .managerInit ok =>
    if s.managerProxy = .initializing then
      some (if ok then s.initManagerProxy else { s with managerProxy := .failed })
    else none
  | .initDone i ok =>
    match s.inits[i]? with
    | none => none
    | some proxy => some (if ok then (s.endInit i).addProxy proxy else s.endInit i)
  | .loadDone i ok =>
    match s.loads[i]? with
    | none => none
    | some owner =>
      if ok then
        -- only the present owner replies
        if s.owner = some owner then some ((s.endLoad i).addObjects s.exports) else none
      else some (s.endLoad i)
  | .interfacesAdded path names =>
    if s.owner = none then none
    else
      let added := names.map fun name => (path, name)
      some ((s.addExports added).onInterfacesAdded added)
  | .interfacesRemoved path names =>
    if s.owner = none then none
    else some ((s.removeExports path names).onInterfacesRemoved path names)
  | .nameAppeared exports =>
    if s.owner = none then some (s.setOwner exports).onNameOwner else none
  | .nameVanished => if s.owner = none then none else some s.loseOwner.onNameOwner

end ObjectManager
