import GnomeShellMobile.Runs.Basic
import Mathlib.Data.List.Basic
import Mathlib.Logic.Function.Basic

/-!
# InputSourceManager — the sources and the order of their use

`InputSourceManager` of `js/ui/status/keyboard.js`, with the session's settings.

* The source objects are made anew at every change; the `generation` and the `index` tell them apart.
  An object of any generation can be activated.
* `hasLayout` stands for `get_layout_info`; the engines that IBus knows are those of the state.
-/

namespace InputSourceManager

inductive SourceType where
  | xkb
  | ibus
  | other
deriving DecidableEq

structure Setting where
  type : SourceType
  id : String
deriving DecidableEq

structure InputSource where
  type : SourceType
  id : String
  index : ℕ
  generation : ℕ
deriving DecidableEq

def InputSource.setting (is : InputSource) : Setting := ⟨is.type, is.id⟩

/-- `_inputSources` and `_currentSource` of a window, or of the overview. -/
structure WindowSource where
  inputSources : ℕ
  currentSource : Option InputSource

def defaultLayout : String := "us"

structure State where
  settingsSources : List Setting
  settingsMruSources : List Setting
  settingsPerWindow : Bool
  engines : List String
  ibusReady : Bool
  inputSources : List InputSource
  generation : ℕ
  currentSource : Option InputSource
  mruSources : List InputSource
  mruSourcesBackup : Option (List InputSource)
  disableIBus : Bool
  sourcesPerWindow : Bool
  currentWindow : Option ℕ
  windowSources : ℕ → Option WindowSource
  switcherPopup : Bool
  created : List InputSource
  passwordOrder : List Setting

def State.new (sources mruSources : List Setting) (perWindow : Bool) : State where
  settingsSources := sources
  settingsMruSources := mruSources
  settingsPerWindow := perWindow
  engines := []
  ibusReady := false
  inputSources := []
  generation := 0
  currentSource := none
  mruSources := []
  mruSourcesBackup := none
  disableIBus := false
  sourcesPerWindow := perWindow
  currentWindow := none
  windowSources := fun _ => none
  switcherPopup := false
  created := []
  passwordOrder := []

def settings (sources : List InputSource) : List Setting := sources.map InputSource.setting

def makeSources (generation : ℕ) (infos : List Setting) : List InputSource :=
  infos.mapIdx fun index info => ⟨info.type, info.id, index, generation⟩

/-- `_mruSources` is taken in its order, each of the entries out of `sourcesList`. -/
def takeSources : List InputSource → List InputSource → List InputSource × List InputSource
  | [], sourcesList => ([], sourcesList)
  | mru :: mruSources, sourcesList =>
    match sourcesList.find? (·.setting = mru.setting) with
    | none => takeSources mruSources sourcesList
    | some is =>
      let rest := takeSources mruSources (sourcesList.eraseP (·.setting = mru.setting))
      (is :: rest.1, rest.2)

def sortSources (mruSources sourcesList : List InputSource) : List InputSource :=
  if mruSources.length > 1 then
    let taken := takeSources mruSources sourcesList
    taken.1 ++ taken.2
  else sourcesList

def moveToFront (newSource : InputSource) : List InputSource → List InputSource
  | [] => []
  | first :: rest =>
    if newSource ∈ rest then newSource :: first :: rest.erase newSource else first :: rest

namespace State

variable (s : State)

def updateMruSettings : State :=
  if !s.ibusReady then s
  else if s.disableIBus then s
  else { s with settingsMruSources := settings s.mruSources }

def changePerWindowSource : State :=
  if !s.sourcesPerWindow then s
  else
    match s.currentWindow with
    | none => s
    | some window =>
      { s with windowSources :=
          Function.update s.windowSources window (some ⟨s.generation, s.currentSource⟩) }

def currentInputSourceChanged (newSource : InputSource) : State :=
  { s with
    currentSource := some newSource
    mruSources := moveToFront newSource s.mruSources }.changePerWindowSource

def activateInputSource (is : InputSource) (interactive : Bool) : State :=
  let s := s.currentInputSourceChanged is
  if interactive then s.updateMruSettings else s

def updateMruSources : State :=
  let sourcesList := s.inputSources
  let s := if s.disableIBus then s
    else
      match s.mruSourcesBackup with
      | none => s
      | some backup => { s with mruSources := backup, mruSourcesBackup := none }
  let mruSources := if s.mruSources.length = 0 then
      s.settingsMruSources.filterMap fun mru => sourcesList.find? (·.setting = mru)
    else s.mruSources
  { s with mruSources := sortSources mruSources sourcesList }

variable (hasLayout : String → Bool)

def sourceExists (s : State) (source : Setting) : Bool :=
  match source.type with
  | .xkb => hasLayout source.id
  | .ibus => !s.disableIBus && s.engines.contains source.id
  | .other => false

def infosList (s : State) : List Setting :=
  match s.settingsSources.filter (s.sourceExists hasLayout) with
  | [] => [⟨.xkb, defaultLayout⟩]
  | infos => infos

def inputSourcesChanged (s : State) : State :=
  let generation := s.generation + 1
  let inputSources := makeSources generation (s.infosList hasLayout)
  let s := { s with
    currentSource := none
    generation := generation
    inputSources := inputSources
    created := s.created ++ inputSources }.updateMruSources
  match s.mruSources with
  | [] => s
  | is :: _ => s.activateInputSource is false

def ibusReadyCallback (s : State) (ready : Bool) : State :=
  if s.ibusReady = ready then s
  else { s with ibusReady := ready, mruSources := [] }.inputSourcesChanged hasLayout

def modifiersSwitcher (s : State) : State :=
  match s.inputSources with
  | [] => s
  | first :: _ =>
    let nextIndex := (s.currentSource.getD first).index + 1
    let nextIndex := if nextIndex > s.inputSources.length - 1 then 0 else nextIndex
    match s.inputSources[nextIndex]? with
    | none => s
    | some is => s.activateInputSource is true

def getNewInputSource (s : State) (current : Option InputSource) : Option InputSource :=
  match current.bind fun current => s.inputSources.find? (·.setting = current.setting) with
  | some is => some is
  | none => s.inputSources.head?

def setPerWindowInputSource (s : State) : State :=
  match s.currentWindow with
  | none => s
  | some window =>
    let old := s.windowSources window
    let currentSource := old.bind (·.currentSource)
    let currentSource := if old.map (·.inputSources) = some s.generation then currentSource
      else s.getNewInputSource currentSource
    let s := { s with windowSources :=
        Function.update s.windowSources window (some ⟨s.generation, currentSource⟩) }
    match currentSource with
    | none => s
    | some is => s.activateInputSource is false

def sourcesPerWindowChanged (s : State) : State :=
  if s.sourcesPerWindow && !s.settingsPerWindow then
    { s with sourcesPerWindow := false, windowSources := fun _ => none }
  else { s with sourcesPerWindow := s.settingsPerWindow }

/-- The number of the keys of `_ibusSources`. -/
def ibusSourcesLength (s : State) : ℕ :=
  ((s.inputSources.filter (·.type = .ibus)).map (·.id)).dedup.length

def ibusSetContentType (s : State) (password : Bool) : State :=
  if s.switcherPopup then s
  else if password then
    if s.inputSources.length = s.ibusSourcesLength then s
    else if s.disableIBus then s
    else { s with
      disableIBus := true
      mruSourcesBackup := some s.mruSources
      passwordOrder := settings s.mruSources }.inputSourcesChanged hasLayout
  else if !s.disableIBus then s
  else { s with disableIBus := false }.inputSourcesChanged hasLayout

end State

inductive Event where
  | sourcesChanged (sources : List Setting)
  | mruSourcesChanged (mruSources : List Setting)
  | perWindowChanged (perWindow : Bool)
  | ready (engines : Option (List String))
  | setContentType (password : Bool)
  | reload
  | activate (is : InputSource) (interactive : Bool)
  | modifiersSwitcher
  | switchInputSource
  | switcherDestroyed
  | currentWindow (window : Option ℕ)
  | setPerWindowInputSource
deriving DecidableEq

variable (hasLayout : String → Bool)

variable (s : State)

def step : Event → Option State
  | .sourcesChanged sources =>
    some ({ s with settingsSources := sources }.inputSourcesChanged hasLayout)
  | .mruSourcesChanged mruSources => some { s with settingsMruSources := mruSources }
  | .perWindowChanged perWindow =>
    some { s with settingsPerWindow := perWindow }.sourcesPerWindowChanged
  | .ready engines =>
    some ({ s with engines := engines.getD [] }.ibusReadyCallback hasLayout engines.isSome)
  | .setContentType password => some (s.ibusSetContentType hasLayout password)
  | .reload => some (s.inputSourcesChanged hasLayout)
  | .activate is interactive =>
    if is ∈ s.created then some (s.activateInputSource is interactive) else none
  | .modifiersSwitcher => some s.modifiersSwitcher
  | .switchInputSource => some (if s.mruSources.length < 2 then s else { s with switcherPopup := true })
  | .switcherDestroyed => some { s with switcherPopup := false }
  | .currentWindow window => some { s with currentWindow := window }
  | .setPerWindowInputSource => if s.sourcesPerWindow then some s.setPerWindowInputSource else none

structure Law : Prop where
  perm : s.mruSources.Perm s.inputSources
  nodup : s.mruSources.Nodup
  head : s.currentSource = s.mruSources.head?

structure Kept (e : Event) (t : State) : Prop where
  law : Law t
  current : ∀ sources, e = .sourcesChanged sources → ∀ is ∈ s.currentSource,
    is.setting ∈ settings t.inputSources → t.currentSource.map InputSource.setting = some is.setting
  order : ∀ sources, e = .sourcesChanged sources →
    ((settings s.mruSources).bagInter (settings t.inputSources)).Sublist (settings t.mruSources)
  restored : e = .setContentType false → s.disableIBus = true → t.disableIBus = false →
    (s.passwordOrder.bagInter (settings t.inputSources)).Sublist (settings t.mruSources)

def Present : Event → Prop
  | .activate is _ => is ∈ s.inputSources
  | .sourcesChanged sources => s.mruSources.length = 1 → ∀ is ∈ s.currentSource,
      is.setting ∈ { s with settingsSources := sources }.infosList hasLayout →
        ({ s with settingsSources := sources }.infosList hasLayout).head? = some is.setting
  | _ => True

instance (e : Event) : Decidable (Present hasLayout s e) := by
  unfold Present
  split <;> infer_instance

end InputSourceManager
