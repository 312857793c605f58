import GnomeShellMobile.Runs.Basic
import Mathlib.Logic.Function.Basic

/-!
# Search — the results view of the overview

`SearchResultsView` and the results of one provider, `SearchResultsBase`, of `js/ui/search.js`, with
the `filterResults` of `js/ui/remoteSearch.js` and `js/ui/appDisplay.js`.

* `Display`, `Provider`, `State`: what is shown for a provider, the provider objects, the view.
* `Request`, `Metas`: a result set that is awaited, and the continuation of `updateSearch`.
* `setTerms`, `doSearch`, `updateSearch` and the others, under the words of the source.
* `step`: what is typed, the timeout, the reloads, and the answers in any order.

A provider may answer a request that was cancelled, with anything. The number of columns of the grid
is fixed, so a change of its width, which shows the last results once more, is left out.
-/

namespace Search

def searchString (terms : List String) : String := " ".intercalate terms

def Extends (older newer : List String) : Prop :=
  (searchString newer).startsWith (searchString older) = true
deriving Decidable

structure Meta where
  id : String
  name : String
  deriving DecidableEq

/-- A `SearchResultsBase`. -/
structure Display where
  /-- The results whose actors are its children. -/
  content : List String
  visible : Bool
  resultDisplays : List String
  cancelled : Bool

/-- As `_ensureProviderDisplay` makes it. -/
def Display.new : Display where
  content := []
  visible := false
  resultDisplays := []
  cancelled := false

structure Provider where
  id : String
  isRemoteProvider : Bool
  searchInProgress : Bool
  display : Display

structure Recorded where
  results : List String
  terms : List String
  deriving DecidableEq

structure Request where
  provider : ℕ
  gen : ℕ
  terms : List String
  previous : Option Recorded
  deriving DecidableEq

/-- What is awaited in `updateSearch`. -/
structure Metas where
  provider : ℕ
  gen : ℕ
  results : List String
  needed : List String
  deriving DecidableEq

structure Answered where
  provider : ℕ
  gen : ℕ
  results : List String
  deriving DecidableEq

structure State where
  terms : List String
  gen : ℕ
  results : String → Option Recorded
  isSubSearch : Bool
  startingSearch : Bool
  searchTimeout : Bool
  columns : Option ℕ
  provider : ℕ → Provider
  created : ℕ
  providers : List ℕ
  requests : List Request
  metas : List Metas
  answered : List Answered
  /-- The display of a registered provider was filled or emptied for older terms. -/
  stale : Bool

namespace Display

def clear (_ : Display) : Display where
  content := []
  visible := false
  resultDisplays := []
  cancelled := true

variable (d : Display)

def metasNeeded (results : List String) : List String :=
  results.filter (· ∉ d.resultDisplays)

def ensureResultActors (id : String) (metasNeeded : List String)
    (metas : List Meta) : Except String Display :=
  if metasNeeded = [] then .ok d
  else if d.cancelled ∧ metas ≠ [] then
    .error ("Search provider " ++ id ++ " returned results after the request was canceled")
  else if metas.length ≠ metasNeeded.length then
    .error ("Wrong number of result metas returned by search provider " ++ id ++ ": expected " ++
      toString metasNeeded.length ++ " but got " ++ toString metas.length)
  else if metas.any fun m => m.name = "" ∨ m.id = "" then
    .error ("Invalid result meta returned from search provider " ++ id)
  else .ok { d with resultDisplays := d.resultDisplays ++ metasNeeded }

def showResults (results : List String) : Display :=
  if ∀ r ∈ results, r ∈ d.resultDisplays then
    { d with content := results.eraseDups, visible := true }
  else { d with content := [], visible := false }

/-- `updateSearch` from the metas on. -/
def receive (id : String) (m : Metas) (metas : List Meta) : Display :=
  match d.ensureResultActors id m.needed metas with
  | .error _ => { d with content := [] }
  | .ok d => d.showResults m.results

end Display

/-- `_getMaxDisplayedResults`, of a `ListSearchResults` or of the `GridSearchResults`. -/
def Provider.maxDisplayedResults (p : Provider) (columns : Option ℕ) : ℕ :=
  if p.isRemoteProvider then 5
  else match columns with
    | none => 6
    | some nCols => min nCols 6

def Provider.filterResults (p : Provider) (results : List String) (maxNumber : ℕ) : List String :=
  if p.isRemoteProvider then
    if results.length ≤ maxNumber then results
    else
      (results.filter fun r => !r.startsWith "special:").take maxNumber ++
        (results.filter fun r => r.startsWith "special:").take maxNumber
  else results.take maxNumber

namespace State

variable (s : State)

def setProvider (p : ℕ) (provider : Provider) : State :=
  { s with provider := Function.update s.provider p provider }

def setDisplay (p : ℕ) (display : Display) : State :=
  s.setProvider p { s.provider p with display := display }

def setSearchInProgress (p : ℕ) (searchInProgress : Bool) : State :=
  s.setProvider p { s.provider p with searchInProgress := searchInProgress }

def searchInProgress (s : State) : Bool :=
  s.startingSearch || s.providers.any fun p => (s.provider p).searchInProgress

def registerProvider (shouldShowApp : String → Bool) (s : State) (id : String) : State :=
  if shouldShowApp id then
    { s.setProvider s.created ⟨id, true, false, Display.new⟩ with
      created := s.created + 1
      providers := s.providers ++ [s.created] }
  else s

/-- `_reloadRemoteProviders`, with the ids that `loadRemoteSearchProviders` gives. -/
def reloadRemoteProviders (ids : List String) (shouldShowApp : String → Bool) : State :=
  ids.foldl (registerProvider shouldShowApp)
    { s with providers := s.providers.filter fun p => !(s.provider p).isRemoteProvider }

def new (columns : Option ℕ) (ids : List String) (shouldShowApp : String → Bool) : State :=
  reloadRemoteProviders
    { terms := []
      gen := 0
      results := fun _ => none
      isSubSearch := false
      startingSearch := false
      searchTimeout := false
      columns := columns
      provider := fun _ => ⟨"applications", false, false, Display.new⟩
      created := 1
      providers := [0]
      requests := []
      metas := []
      answered := []
      stale := false } ids shouldShowApp

def clearDisplay : State :=
  { s with provider := fun p =>
      if p ∈ s.providers then { s.provider p with display := (s.provider p).display.clear }
      else s.provider p }

def reset : State :=
  { s.clearDisplay with
    terms := []
    results := fun _ => none
    searchTimeout := false
    startingSearch := false }

def setTerms (terms : List String) : State :=
  if searchString terms = searchString s.terms then s
  else if terms = [] then { s with gen := s.gen + 1 }.reset
  else
    { s with
      gen := s.gen + 1
      startingSearch := true
      isSubSearch := decide (s.terms ≠ [] ∧ Extends s.terms terms)
      terms := terms
      searchTimeout := true }

/-- What `_doProviderSearch` asks a provider for. -/
def request (previous : String → Option Recorded) (p : ℕ) : Request where
  provider := p
  gen := s.gen
  terms := s.terms
  previous := if s.isSubSearch then previous (s.provider p).id else none

def doProviderSearch (previous : String → Option Recorded) (s : State) (p : ℕ) : State :=
  { s.setSearchInProgress p true with requests := s.requests ++ [s.request previous p] }

def doSearch : State :=
  { s.providers.foldl (doProviderSearch s.results)
      { s with startingSearch := false, results := fun _ => none } with
    searchTimeout := false }

/-- `_updateResults`, and `updateSearch` up to the metas. -/
def updateResults (p gen : ℕ) (results : List String) : State :=
  let provider := s.provider p
  let display := provider.display
  if results = [] then
    (s.setDisplay p { display with content := [], visible := false }).setSearchInProgress p false
  else
    let results := provider.filterResults results (provider.maxDisplayedResults s.columns)
    let needed := display.metasNeeded results
    { s.setDisplay p (if needed = [] then display else { display with cancelled := false }) with
      metas := s.metas ++ [{ provider := p, gen := gen, results := results, needed := needed }] }

def SameShown (s t : State) (p : ℕ) : Prop :=
  (t.provider p).display.content = (s.provider p).display.content ∧
    (t.provider p).display.visible = (s.provider p).display.visible
deriving Decidable

/-- Whether an answer of `gen` for `p`, which leads to `t`, was for older terms. -/
def note (p gen : ℕ) (t : State) : State :=
  { t with stale := s.stale || decide (p ∈ s.providers ∧ gen ≠ s.gen ∧ ¬ s.SameShown t p) }

def answer (r : Request) (results : List String) : State :=
  s.note r.provider r.gen <|
    { s with
      requests := s.requests.erase r
      results := Function.update s.results (s.provider r.provider).id (some ⟨results, r.terms⟩)
      answered := ⟨r.provider, r.gen, results⟩ :: s.answered }.updateResults r.provider r.gen results

/-- `updateSearch` from the metas on, with its callback. -/
def receive (s : State) (m : Metas) (metas : List Meta) : State :=
  let provider := s.provider m.provider
  s.note m.provider m.gen <|
    (State.setDisplay { s with metas := s.metas.erase m } m.provider
      (provider.display.receive provider.id m metas)).setSearchInProgress m.provider false

end State

inductive Event where
  | setTerms (terms : List String)
  | timeout
  | activateDefault
  | reload (ids : List String) (shouldShowApp : String → Bool)
  | answer (r : Request) (results : List String)
  | metas (m : Metas) (metas : List Meta)

def step (s : State) : Event → Option State
  | .setTerms terms => some (s.setTerms terms)
  | .timeout => if s.searchTimeout then some s.doSearch else none
  | .activateDefault => some (if s.searchTimeout then s.doSearch else s)
  | .reload ids shouldShowApp => some (s.reloadRemoteProviders ids shouldShowApp)
  | .answer r results => if r ∈ s.requests then some (s.answer r results) else none
  | .metas m metas => if m ∈ s.metas then some (s.receive m metas) else none

namespace State

def Settled (s : State) : Prop := s.searchTimeout = false ∧ s.requests = [] ∧ s.metas = []

def displayed (s : State) (p : ℕ) (results : List String) : List String :=
  ((s.provider p).filterResults results
    ((s.provider p).maxDisplayedResults s.columns)).eraseDups

/-- The display of `p` shows the results for the current terms. -/
def Shows (s : State) (p : ℕ) : Prop :=
  if s.terms = [] then
    (s.provider p).display.content = [] ∧ (s.provider p).display.visible = false
  else
    ∃ results, ⟨p, s.gen, results⟩ ∈ s.answered ∧
      (s.provider p).display.content = s.displayed p results ∧
      (s.provider p).display.visible = decide (results ≠ [])

end State

/-- No display has changed because of older terms, a sub-search gets results of terms that its own
extend, and when nothing is waited for the displays show the results for the current terms. -/
structure Consistent (s : State) : Prop where
  fresh : s.stale = false
  subsearch : ∀ r ∈ s.requests, ∀ previous, r.previous = some previous →
    Extends previous.terms r.terms
  settled : s.Settled → s.searchInProgress = false ∧ ∀ p ∈ s.providers, s.Shows p

end Search
