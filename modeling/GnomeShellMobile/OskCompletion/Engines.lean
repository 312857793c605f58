import GnomeShellMobile.Runs.Basic
import Mathlib.Logic.Basic

/-!
# OskCompletion — the completion of the on-screen keyboard and the engines of IBus

`setEngine` and `setCompletionEnabled` of `IBusManager` (`js/misc/ibusManager.js`), which is ready
all along, and `setOskCompletion` of `KeyboardController` (`js/ui/keyboard.js`).

* An engine is asked for in `request`; the call is awaited by one of `Awaiting`, which goes on when
  it ends.
* An answer of `setCompletionEnabled` without a call is taken by the controller a moment later.
* `step`: openings and closings of the keyboard, activations of sources, notifications of IBus, and
  the ends of the calls in any order.
-/

namespace OskCompletion

/-- Who waits for `setCompletionEnabled`. -/
inductive Caller where
  /-- `setOskCompletion` of the controller. -/
  | controller
  /-- `_maybeUpdateCompletion`, for the engine of a source. -/
  | source
deriving DecidableEq

inductive Awaiting where
  | setEngine
  | setCompletionEnabled (enabled : Bool) (caller : Caller)
deriving DecidableEq

/-- A call of `set_global_engine_async`; after an error it is made again with the fallback engine. -/
structure Call where
  awaiting : Awaiting
  fallback : Bool
deriving DecidableEq

def typingBoosterEngine : String := "typing-booster"

def fallbackEngineId : String := "xkb:us::eng"

def isXkb (engine : String) : Bool := "xkb:".toList.isPrefixOf engine.toList

structure State where
  typingBooster : Bool
  currentEngineName : Option String
  oskCompletion : Option Bool
  preOskEngine : Option String
  oskCompletionEnabled : Option Bool
  calls : List Call
  answers : List Bool
  errors : ℕ
  requested : Option String
  activated : Option String
  opened : Bool

def State.new (typingBooster : Bool) : State where
  typingBooster := typingBooster
  currentEngineName := none
  oskCompletion := none
  preOskEngine := none
  oskCompletionEnabled := none
  calls := []
  answers := []
  errors := 0
  requested := none
  activated := none
  opened := false

namespace State

variable (s : State)

/-- `_setEngine`, up to the end of its call. -/
def request (engine : String) (awaiting : Awaiting) : State :=
  { s with requested := some engine, calls := s.calls ++ [⟨awaiting, false⟩] }

variable (enabled : Bool)

/-- `setCompletionEnabled` returns without a call. -/
def answer : Caller → State
  | .controller => { s with answers := s.answers ++ [enabled] }
  | .source => s

/-- The part of `setCompletionEnabled` after its checks. -/
def toggleCompletion (caller : Caller) : State :=
  if s.oskCompletion = some enabled then s.answer enabled caller
  else
    let s := { s with oskCompletion := some enabled }
    if enabled then
      { s with preOskEngine := s.currentEngineName }.request typingBoosterEngine
        (.setCompletionEnabled enabled caller)
    else
      match s.preOskEngine.filter (· ≠ "") with
      | none => s.answer enabled caller
      | some engine => s.request engine (.setCompletionEnabled enabled caller)

def setCompletionEnabled (caller : Caller) : State :=
  if enabled then
    if s.typingBooster then
      match s.currentEngineName with
      | none => { s with errors := s.errors + 1 }
      | some name =>
        if isXkb name then s.toggleCompletion enabled caller else s.answer false caller
    else s.answer false caller
  else s.toggleCompletion enabled caller

/-- `setEngine`, with `_maybeUpdateCompletion`. -/
def setEngine (s : State) (id : String) : State :=
  let s := { s with activated := some id }
  if s.oskCompletion = some true then
    let s := { s with preOskEngine := some id }
    if isXkb id then s else s.setCompletionEnabled false .source
  else s.request id .setEngine

def setOskCompletion : State :=
  let s := { s with opened := enabled }
  if s.oskCompletionEnabled = some enabled then s
  else s.setCompletionEnabled enabled .controller

def finish : Awaiting → State
  | .setEngine => s
  | .setCompletionEnabled enabled caller =>
    let s := if enabled then s else { s with preOskEngine := none }
    match caller with
    | .controller => { s with oskCompletionEnabled := s.oskCompletion }
    | .source => s

end State

inductive Event where
  | setOskCompletion (enabled : Bool)
  | setEngine (id : String)
  | engineChanged (name : String)
  /-- The `i`-th of the calls ends. -/
  | done (i : ℕ) (ok : Bool)
  /-- The controller takes the `i`-th of the answers. -/
  | taken (i : ℕ)
deriving DecidableEq

def step (s : State) : Event → Option State
  | .setOskCompletion enabled => some (s.setOskCompletion enabled)
  | .setEngine id => some (s.setEngine id)
  | .engineChanged name => some { s with currentEngineName := some name }
  | .done i ok =>
    match s.calls[i]? with
    | none => none
    | some call =>
      if ok then some ({ s with calls := s.calls.eraseIdx i }.finish call.awaiting)
      else
        let s := { s with errors := s.errors + 1 }
        if call.fallback then some ({ s with calls := s.calls.eraseIdx i }.finish call.awaiting)
        else
          some { s with
            requested := some fallbackEngineId
            calls := s.calls.set i { call with fallback := true } }
  | .taken i =>
    match s.answers[i]? with
    | none => none
    | some enabled =>
      some { s with
        answers := s.answers.eraseIdx i
        oskCompletionEnabled := some enabled }

def Tells (call : Call) : Prop :=
  call.awaiting = .setCompletionEnabled true .controller ∨
    call.awaiting = .setCompletionEnabled false .controller
deriving Decidable

namespace State

variable (s : State)

def completes : Bool := s.oskCompletion = some true

def Quiet : Prop := s.calls = [] ∧ s.answers = []
deriving Decidable

def IsActivated (engine : Option String) : Prop :=
  match s.activated with
  | none => engine ≠ some typingBoosterEngine
  | some id => engine = some id

instance (engine : Option String) : Decidable (s.IsActivated engine) :=
  match h : s.activated with
  | none => decidable_of_iff (engine ≠ some typingBoosterEngine) (by simp [IsActivated, h])
  | some id => decidable_of_iff (engine = some id) (by simp [IsActivated, h])

def Told : Prop :=
  s.oskCompletionEnabled.getD false = s.completes ∨ (∃ call ∈ s.calls, Tells call) ∨
    s.completes ∈ s.answers
deriving Decidable

end State

structure Law (s : State) : Prop where
  requested : if s.completes then s.requested = some typingBoosterEngine else s.IsActivated s.requested
  stored : s.completes → ∃ engine, s.preOskEngine = some engine ∧ engine ≠ "" ∧
    s.IsActivated (some engine)
  told : s.Told
  settled : s.Quiet → s.oskCompletionEnabled.getD false = s.completes
  closed : s.opened = false → s.completes = false

/-- * Completion is switched on while the current engine is that of the last activated source.
* The keyboard is closed while the controller knows of the completion.
* An engine that is not of xkb is activated while completion is on only if the controller will be
  told.
* A call that returns to the engine ends while completion is off, and the fallback engine is only
  requested if it is the right one.
* An answer is taken while it is right, or a right one is still to come. -/
def Orderly (s : State) : Event → Prop
  | .setOskCompletion true => s.typingBooster = true → s.completes = false →
      s.oskCompletionEnabled ≠ some true → ∀ name ∈ s.currentEngineName, isXkb name = true →
        s.IsActivated (some name)
  | .setOskCompletion false => s.oskCompletionEnabled = some false → s.completes = false
  | .setEngine id => s.completes = true → isXkb id = false → id ≠ "" ∧
      (s.oskCompletionEnabled.getD false = false ∨ (∃ call ∈ s.calls, Tells call) ∨
        false ∈ s.answers)
  | .engineChanged _ => True
  | .done i ok => ∀ call ∈ s.calls[i]?,
      if ok = true ∨ call.fallback = true then
        (∃ caller, call.awaiting = .setCompletionEnabled false caller) → s.completes = false
      else s.completes = false ∧ s.IsActivated (some fallbackEngineId)
  | .taken i => ∀ enabled ∈ s.answers[i]?,
      enabled = s.completes ∨ (∃ call ∈ s.calls, Tells call) ∨ s.completes ∈ s.answers.eraseIdx i

theorem exists_caller {awaiting : Awaiting} {enabled : Bool} :
    (∃ caller, awaiting = .setCompletionEnabled enabled caller) ↔
      awaiting = .setCompletionEnabled enabled .controller ∨
        awaiting = .setCompletionEnabled enabled .source := by
  constructor
  · rintro ⟨caller, h⟩
    cases caller with
    | controller => exact .inl h
    | source => exact .inr h
  · rintro (h | h)
    · exact ⟨_, h⟩
    · exact ⟨_, h⟩

instance (awaiting : Awaiting) (enabled : Bool) :
    Decidable (∃ caller, awaiting = .setCompletionEnabled enabled caller) :=
  decidable_of_iff _ exists_caller.symm

instance (s : State) (e : Event) : Decidable (Orderly s e) := by
  unfold Orderly
  split <;> infer_instance

end OskCompletion
