import Mathlib.Logic.Function.Basic
import GnomeShellMobile.Runs.Basic

/-!
# ExtensionManager — enabling and disabling extensions

The part of `ExtensionManager` of `js/ui/extensionSystem.js` that calls the hooks of extensions, with
every operation run to its end before the next one begins. `calls` is the list of the hooks that have
been called. Stylesheets, versions and signals are left out but for the branches they decide.
-/

namespace ExtensionManager

abbrev Uuid := String

inductive ExtensionState where
  | active
  | inactive
  | error
  | outOfDate
  | downloading
  | initialized
  | deactivating
  | activating
  | uninstalled
deriving DecidableEq

inductive Hook where
  | enable
  | disable
deriving DecidableEq

/-- `stateObj` tells whether the extension has been constructed. -/
structure Extension where
  state : Option ExtensionState
  sessionModes : List String
  stateObj : Bool
deriving DecidableEq

structure Manager where
  extensions : Uuid → Option Extension
  extensionOrder : List Uuid
  enabledExtensions : List Uuid
  currentMode : String
  parentMode : String
  calls : List (Uuid × Hook)

structure Answers where
  throws : Uuid → Hook → Bool
  /-- There is an `extension.js`, it can be imported, and the extension constructed. -/
  extensionJs : Uuid → Bool
  imports : Uuid → Bool
  constructs : Uuid → Bool
  loadsStylesheet : Uuid → Bool
  outOfDate : Uuid → Bool
  canLoad : Uuid → Bool

def start : Manager := ⟨fun _ => none, [], [], "", "", []⟩

namespace Manager

variable (s : Manager) (answers : Answers)

variable (uuid : Uuid)

def lookup : Option Extension := s.extensions uuid

def set (extension : Option Extension) : Manager :=
  { s with extensions := Function.update s.extensions uuid extension }

def changeExtensionState (state : ExtensionState) : Manager :=
  match s.lookup uuid with
  | some extension => s.set uuid (some { extension with state := some state })
  | none => s

def logExtensionError : Manager := s.changeExtensionState uuid .error

def supportsSessionMode : Bool :=
  match s.lookup uuid with
  | none => false
  | some extension =>
    extension.sessionModes.contains s.currentMode || extension.sessionModes.contains s.parentMode

/-- A hook is called within a `try`: an error is logged, also the one of a missing object. The second
component tells that there was none. -/
def tryHook (hook : Hook) : Manager × Bool :=
  match s.lookup uuid with
  | none => (s.logExtensionError uuid, false)
  | some extension =>
    if extension.stateObj then
      let s := { s with calls := s.calls ++ [(uuid, hook)] }
      if answers.throws uuid hook then (s.logExtensionError uuid, false) else (s, true)
    else (s.logExtensionError uuid, false)

/-- The hooks of several extensions, each in its own `try`. -/
def tryHooks (uuids : List Uuid) (hook : Hook) : Manager :=
  uuids.foldl (fun s uuid => (s.tryHook answers uuid hook).1) s

/-- `slice(indexOf(uuid) + 1)`: without an entry the index is -1. -/
def laterThan (order : List Uuid) (uuid : Uuid) : List Uuid :=
  if uuid ∈ order then order.drop (order.idxOf uuid + 1) else order

/-- `splice(indexOf(uuid), 1)`: without an entry the last one is removed. -/
def spliced (order : List Uuid) (uuid : Uuid) : List Uuid :=
  if uuid ∈ order then order.eraseIdx (order.idxOf uuid) else order.dropLast

def callExtensionDisable : Manager :=
  match s.lookup uuid with
  | none => s
  | some extension =>
    if extension.state ≠ some .active then s
    else
      let s := s.changeExtensionState uuid .deactivating
      let order := laterThan s.extensionOrder uuid
      let orderReversed := order.reverse
      let s := s.tryHooks answers orderReversed .disable
      let s := (s.tryHook answers uuid .disable).1
      let s := s.tryHooks answers order .enable
      let s := { s with extensionOrder := spliced s.extensionOrder uuid }
      if (s.lookup uuid).bind Extension.state ≠ some .error then
        s.changeExtensionState uuid .inactive
      else s

/-- `_callExtensionInit`, with the value it returns. -/
def callExtensionInit : Manager × Bool :=
  if s.supportsSessionMode uuid then
    match s.lookup uuid with
    | none => (s, false)
    | some extension =>
      if answers.extensionJs uuid && answers.imports uuid && answers.constructs uuid then
        (s.set uuid (some { extension with state := some .inactive, stateObj := true }), true)
      else (s.logExtensionError uuid, false)
  else (s, false)

/-- `_callExtensionEnable` once the extension is known to be inactive. -/
def enableInactive : Manager :=
  let s := s.changeExtensionState uuid .activating
  if answers.loadsStylesheet uuid then
    let (s, called) := s.tryHook answers uuid .enable
    if called then
      let s := s.changeExtensionState uuid .active
      { s with extensionOrder := s.extensionOrder ++ [uuid] }
    else s
  else s.logExtensionError uuid

def callExtensionEnable : Manager :=
  if s.supportsSessionMode uuid then
    match s.lookup uuid with
    | none => s
    | some extension =>
      let s :=
        if extension.state = some .initialized then (s.callExtensionInit answers uuid).1 else s
      if (s.lookup uuid).bind Extension.state ≠ some .inactive then s
      else s.enableInactive answers uuid
  else s

def createExtensionObject (sessionModes : List String) : Manager :=
  s.set uuid (some ⟨none, sessionModes, false⟩)

def loadExtension : Manager :=
  let s := s.changeExtensionState uuid .error
  if answers.outOfDate uuid then s.changeExtensionState uuid .outOfDate
  else if !answers.canLoad uuid then s.logExtensionError uuid
  else if s.enabledExtensions.contains uuid && s.supportsSessionMode uuid then
    let (s, initialized) := s.callExtensionInit answers uuid
    if initialized && (s.lookup uuid).bind Extension.state = some .inactive then
      s.callExtensionEnable answers uuid
    else s
  else s.changeExtensionState uuid .initialized

def unloadExtension : Manager :=
  let s := s.callExtensionDisable answers uuid
  let s := s.changeExtensionState uuid .uninstalled
  s.set uuid none

/-- `reloadExtension`; the metadata is read again, which may fail. -/
def reloadExtension (sessionModes : Option (List String)) : Manager :=
  let s := s.unloadExtension answers uuid
  match sessionModes with
  | some sessionModes => (s.createExtensionObject uuid sessionModes).loadExtension answers uuid
  | none => s.logExtensionError uuid

def onEnabledExtensionsChanged (newEnabledExtensions : List Uuid) : Manager :=
  let extensionsToDisable := (s.extensionOrder.filter fun uuid =>
    !newEnabledExtensions.contains uuid || !s.supportsSessionMode uuid).reverse
  let s' := extensionsToDisable.foldl (fun s uuid => s.callExtensionDisable answers uuid) s
  let extensionsToEnable := newEnabledExtensions.filter fun uuid =>
    !s'.enabledExtensions.contains uuid && s'.supportsSessionMode uuid
  let s' := extensionsToEnable.foldl (fun s uuid => s.callExtensionEnable answers uuid) s'
  { s' with enabledExtensions := newEnabledExtensions }

end Manager

inductive Op where
  | disable (uuid : Uuid)
  | enable (uuid : Uuid)
  | install (uuid : Uuid) (sessionModes : List String)
  | unload (uuid : Uuid)
  | reload (uuid : Uuid) (sessionModes : Option (List String))
  | enabledExtensionsChanged (newEnabledExtensions : List Uuid)
  | sessionModeChanged (currentMode parentMode : String)

def step (s : Manager) : Op × Answers → Option Manager
  | (.disable uuid, answers) => some (s.callExtensionDisable answers uuid)
  | (.enable uuid, answers) => some (s.callExtensionEnable answers uuid)
  | (.install uuid sessionModes, answers) =>
    if (s.lookup uuid).isNone then
      some ((s.createExtensionObject uuid sessionModes).loadExtension answers uuid)
    else none
  | (.unload uuid, answers) => some (s.unloadExtension answers uuid)
  | (.reload uuid sessionModes, answers) => some (s.reloadExtension answers uuid sessionModes)
  | (.enabledExtensionsChanged newEnabledExtensions, answers) =>
    some (s.onEnabledExtensionsChanged answers newEnabledExtensions)
  | (.sessionModeChanged currentMode parentMode, _) =>
    some { s with currentMode := currentMode, parentMode := parentMode }

end ExtensionManager
