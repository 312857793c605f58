import GnomeShellMobile.Dict.Basic
import GnomeShellMobile.Runs.Basic
import Mathlib.Logic.Function.Basic

/-!
# InjectionManager — overridden methods

`InjectionManager` of `js/extensions/extension.js`, over the objects that it modifies.

* `State`: the own properties of the objects, the virtual functions of their classes, and what was
  saved of them.
* `overrideMethod`, `restoreMethod`, `clear`. A function that throws leaves the state that it had
  made, `Except.error s`.
* `Law`: what `clear` owes to the objects.

The objects and the values are arbitrary types; `none` is the value `undefined`. Which objects are
on the prototype chain of another one, and which virtual functions a class can hook up, does not
change.
-/

namespace InjectionManager

variable {Obj V : Type*}

structure Classes (Obj : Type*) where
  prototypes : Obj → List Obj
  /-- `hook_up_vfunc` knows the virtual function. -/
  hooks : Obj → String → Bool

structure State (Obj V : Type*) where
  own : Obj → String → Option (Option V)
  vfuncs : Obj → String → Option V
  savedMethods : Dict Obj (Dict String (Option V))

def isVfunc (methodName : String) : Bool := "vfunc_".toList.isPrefixOf methodName.toList

namespace State

def lookup (C : Classes Obj) (s : State Obj V) (object : Obj) (name : String) : Option V :=
  ((object :: C.prototypes object).findSome? fun o => s.own o name).join

def call (C : Classes Obj) (s : State Obj V) (object : Obj) (name : String) : Option V :=
  if isVfunc name then s.vfuncs object name else s.lookup C object name

variable [DecidableEq Obj]

variable (s : State Obj V)

def setOwn (object : Obj) (name : String) (property : Option (Option V)) :
    State Obj V :=
  { s with own := Function.update s.own object (Function.update (s.own object) name property) }

def setVfunc (object : Obj) (name : String) (method : V) : State Obj V :=
  { s with
    vfuncs := Function.update s.vfuncs object (Function.update (s.vfuncs object) name (some method)) }

def saveMethod (C : Classes Obj) (s : State Obj V) (prototype : Obj) (methodName : String) :
    State Obj V :=
  let savedProtoMethods := (s.savedMethods.get? prototype).getD Dict.empty
  { s with
    savedMethods := s.savedMethods.set prototype
      (savedProtoMethods.set methodName (s.lookup C prototype methodName)) }

def installMethod (C : Classes Obj) (s : State Obj V) (prototype : Obj) (methodName : String)
    (method : V) : Except (State Obj V) (State Obj V) :=
  if isVfunc methodName then
    if C.hooks prototype methodName then .ok (s.setVfunc prototype methodName method) else .error s
  else .ok (s.setOwn prototype methodName (some (some method)))

/-- `overrideMethod`; the override is what `createOverrideFunc` returns, if it does not throw. -/
def overrideMethod (C : Classes Obj) (s : State Obj V) (prototype : Obj) (methodName : String)
    (override : Option V) : Except (State Obj V) (State Obj V) :=
  let s := s.saveMethod C prototype methodName
  match override with
  | none => .error s
  | some method => s.installMethod C prototype methodName method

/-- The end of `restoreMethod`. -/
def forget (prototype : Obj) (savedProtoMethods : Dict String (Option V))
    (methodName : String) : State Obj V :=
  let savedProtoMethods := savedProtoMethods.erase methodName
  { s with
    savedMethods :=
      if savedProtoMethods.size = 0 then s.savedMethods.erase prototype
      else s.savedMethods.set prototype savedProtoMethods }

def restoreMethod (C : Classes Obj) (s : State Obj V) (prototype : Obj) (methodName : String) :
    Except (State Obj V) (State Obj V) :=
  match s.savedMethods.get? prototype with
  | none => .ok s
  | some savedProtoMethods =>
    match (savedProtoMethods.get? methodName).join with
    | none => .ok ((s.setOwn prototype methodName none).forget prototype savedProtoMethods methodName)
    | some originalMethod =>
      match s.installMethod C prototype methodName originalMethod with
      | .error s => .error s
      | .ok s => .ok (s.forget prototype savedProtoMethods methodName)

def clear (C : Classes Obj) (s : State Obj V) : Except (State Obj V) (State Obj V) :=
  s.savedMethods.entries.foldlM (fun s e =>
    e.2.entries.foldlM (fun s f => s.restoreMethod C e.1 f.1) s) s

end State

inductive Event (Obj V : Type*) where
  | overrideMethod (prototype : Obj) (methodName : String) (override : Option V)
  | restoreMethod (prototype : Obj) (methodName : String)
  | clear

def leaves : Except (State Obj V) (State Obj V) → State Obj V
  | .ok s => s
  | .error s => s

def step [DecidableEq Obj] (C : Classes Obj) (s : State Obj V) :
    Event Obj V → Option (State Obj V)
  | .overrideMethod prototype methodName override =>
    some (leaves (s.overrideMethod C prototype methodName override))
  | .restoreMethod prototype methodName => some (leaves (s.restoreMethod C prototype methodName))
  | .clear => some (leaves (s.clear C))

/-- **What `clear` owes.** It returns, with the own properties that the objects had at first, and
calls end up where they did; and a method is restored without a change to another one. -/
structure Law [DecidableEq Obj] (C : Classes Obj) (s₀ s : State Obj V) : Prop where
  cleared : ∃ t, s.clear C = .ok t ∧ t.own = s₀.own ∧ t.call C = s₀.call C
  alone : ∀ prototype methodName object name, (object, name) ≠ (prototype, methodName) →
    (leaves (s.restoreMethod C prototype methodName)).own object name = s.own object name ∧
      (leaves (s.restoreMethod C prototype methodName)).vfuncs object name = s.vfuncs object name

end InjectionManager
