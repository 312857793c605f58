import GnomeShellMobile.Dict.Basic
import GnomeShellMobile.Runs.Basic
import Mathlib.Data.List.Perm.Basic

/-!
# KeyboardManager — layouts and their groups

`KeyboardManager` of `js/misc/keyboardManager.js`, and the two calls of the backend that it awaits.

* `setUserLayouts` puts the layouts into groups; a keymap is built from a group.
* `apply`, `reapply`: a keymap change and the index in the group after it, or the index only.
* `step`: requests, and the ends of the calls in any order.

A keymap change leaves the index as it is. The options and the model are set before the first
request, as `reload` of the input sources does.
-/

namespace KeyboardManager

structure Xkb where
  getLayoutInfo : String → Option (String × String)
  localeLayoutInfo : String × String

def maxLayoutsPerGroup : ℕ := 4

/-- An array of layouts and variants. Arrays of different calls or positions are different objects. -/
structure Group where
  call : ℕ
  position : ℕ
  layouts : List (String × String)
deriving DecidableEq

structure LayoutInfo where
  id : String
  layout : String
  variant : String
  group : Group
  groupIndex : ℕ
deriving DecidableEq

structure Keymap where
  layouts : String
  variants : String
  options : String
  model : String
deriving DecidableEq

structure State where
  xkbOptions : List String
  xkbModel : String
  current : Option LayoutInfo
  layoutInfos : List LayoutInfo
  currentKeymap : Option Keymap
  /-- The calls of `setUserLayouts` so far. -/
  setCalls : ℕ
  /-- The calls of `set_keymap_async` that are awaited, each with the index to be set then. -/
  keymapCalls : List (Keymap × ℕ)
  resumes : List ℕ
  /-- The calls of `set_keymap_layout_group_async` that are awaited. -/
  indexCalls : List ℕ
  keymap : Option Keymap
  index : ℕ
  errors : ℕ
  /-- The keymap and the index of the layout last applied, with the options and the model of the
  last `apply` or `reapply`. -/
  wanted : Option (Keymap × ℕ)

def State.new (options : List String) (model : String) : State where
  xkbOptions := options
  xkbModel := model
  current := none
  layoutInfos := []
  currentKeymap := none
  setCalls := 0
  keymapCalls := []
  resumes := []
  indexCalls := []
  keymap := none
  index := 0
  errors := 0
  wanted := none

namespace State

variable (xkb : Xkb)

/-- The first loop of `setUserLayouts`. -/
def foundLayouts (ids : List String) : Dict String (String × String) :=
  ids.foldl (fun d id =>
    match xkb.getLayoutInfo id with
    | none => d
    | some info => d.set id info) Dict.empty

/-- The second loop of `setUserLayouts`: one slot of each group stays free. -/
def layoutInfo (call : ℕ) (entries : List (String × String × String)) (i : ℕ)
    (entry : String × String × String) : LayoutInfo :=
  let groupIndex := i % (maxLayoutsPerGroup - 1)
  { id := entry.1
    layout := entry.2.1
    variant := entry.2.2
    group :=
      { call := call
        position := i / (maxLayoutsPerGroup - 1)
        layouts := ((entries.drop (i - groupIndex)).take (maxLayoutsPerGroup - 1)).map Prod.snd }
    groupIndex := groupIndex }

variable (s : State)

def setUserLayouts (ids : List String) : State :=
  let entries := (foundLayouts xkb ids).entries
  { s with
    current := none
    layoutInfos := entries.mapIdx (layoutInfo s.setCalls entries)
    setCalls := s.setCalls + 1 }

/-- `_buildOptionsString` and `_buildGroupStrings`. -/
def buildKeymap (group : Group) : Keymap :=
  let group := group.layouts ++ [xkb.localeLayoutInfo]
  { layouts := ",".intercalate (group.map Prod.fst)
    variants := ",".intercalate (group.map Prod.snd)
    options := ",".intercalate s.xkbOptions
    model := s.xkbModel }

def applyLayoutGroupIndex (idx : ℕ) : State :=
  { s with indexCalls := s.indexCalls ++ [idx] }

variable (info : LayoutInfo)

/-- `_doApply`, with `_applyLayoutGroup`, up to its first `await`. -/
def doApply : State :=
  let keymap := s.buildKeymap xkb info.group
  if s.currentKeymap = some keymap then { s with resumes := s.resumes ++ [info.groupIndex] }
  else
    { s with
      currentKeymap := some keymap
      keymapCalls := s.keymapCalls ++ [(keymap, info.groupIndex)] }

def want : State :=
  { s with wanted := some (s.buildKeymap xkb info.group, info.groupIndex) }

def inCurrentGroup : Bool :=
  s.current.any fun current => current.group = info.group

/-- The calls that `apply` makes. -/
def request : State :=
  if s.inCurrentGroup info then
    if s.current.map (·.groupIndex) ≠ some info.groupIndex then
      s.applyLayoutGroupIndex info.groupIndex
    else s
  else s.doApply xkb info

def apply (id : String) : State :=
  match s.layoutInfos.find? (·.id = id) with
  | none => s
  | some info => { (s.want xkb info).request xkb info with current := some info }

def reapply : State :=
  match s.current with
  | none => s
  | some info => (s.want xkb info).doApply xkb info

end State

inductive Event where
  | setUserLayouts (ids : List String)
  | apply (id : String)
  | reapply
  | setKeyboardOptions (options : List String)
  | setKeyboardModel (model : String)
  /-- The `i`-th of the awaited calls of `set_keymap_async` ends. -/
  | keymapDone (i : ℕ) (ok : Bool)
  /-- An `_applyLayoutGroup` without a call is over. -/
  | resume (i : ℕ)
  /-- The `i`-th of the awaited calls of `set_keymap_layout_group_async` ends. -/
  | indexDone (i : ℕ) (ok : Bool)
deriving DecidableEq

variable (xkb : Xkb)

def step (s : State) : Event → Option State
  | .setUserLayouts ids => some (s.setUserLayouts xkb ids)
  | .apply id => some (s.apply xkb id)
  | .reapply => some (s.reapply xkb)
  | .setKeyboardOptions options => some { s with xkbOptions := options }
  | .setKeyboardModel model => some { s with xkbModel := model }
  | .keymapDone i ok =>
    match s.keymapCalls[i]? with
    | none => none
    | some (keymap, idx) =>
      let s := { s with keymapCalls := s.keymapCalls.eraseIdx i }
      some (if ok then { s with keymap := some keymap }.applyLayoutGroupIndex idx
        else { s with errors := s.errors + 1 })
  | .resume i =>
    match s.resumes[i]? with
    | none => none
    | some idx => some ({ s with resumes := s.resumes.eraseIdx i }.applyLayoutGroupIndex idx)
  | .indexDone i ok =>
    match s.indexCalls[i]? with
    | none => none
    | some idx =>
      let s := { s with indexCalls := s.indexCalls.eraseIdx i }
      some (if ok then { s with index := idx } else { s with errors := s.errors + 1 })

namespace State

def Quiet (s : State) : Prop := s.keymapCalls = [] ∧ s.resumes = [] ∧ s.indexCalls = []

def BringsKeymap (s : State) (keymap : Keymap) : Prop :=
  s.keymap = some keymap ∨ keymap ∈ s.keymapCalls.map Prod.fst
deriving Decidable

def pendingIndices (s : State) : List ℕ :=
  s.indexCalls ++ s.resumes ++ s.keymapCalls.map Prod.snd

end State

variable (s : State)

structure Law : Prop where
  settled : s.Quiet → ∀ w ∈ s.wanted, s.keymap = some w.1 ∧ s.index = w.2
  keymap : ∀ w ∈ s.wanted, s.BringsKeymap w.1
  index : ∀ w ∈ s.wanted, s.index = w.2 ∨ w.2 ∈ s.pendingIndices
  cached : ∀ k ∈ s.currentKeymap, s.BringsKeymap k

/-- The end of a keymap call, without which the others in `s` are pending. -/
def KeymapInTurn (call : Keymap × ℕ) (ok : Bool) : Prop :=
  if ok then
    -- another keymap is only set while the right one is still to come
    (∀ w ∈ s.wanted, w.1 = call.1 ∨ w.1 ∈ s.keymapCalls.map Prod.fst) ∧
      ∀ k ∈ s.currentKeymap, k = call.1 ∨ k ∈ s.keymapCalls.map Prod.fst
  else
    -- nothing depends on the call
    (∀ w ∈ s.wanted, s.BringsKeymap w.1 ∧ (s.index = w.2 ∨ w.2 ∈ s.pendingIndices)) ∧
      ∀ k ∈ s.currentKeymap, s.BringsKeymap k

/-- The end of an index call, without which the others in `s` are pending. -/
def IndexInTurn (idx : ℕ) (ok : Bool) : Prop :=
  ∀ w ∈ s.wanted, (if ok then w.2 = idx else s.index = w.2) ∨ w.2 ∈ s.pendingIndices
deriving Decidable

/-- * A layout of the current group is applied while its keymap, with the present options and model,
  is in effect or being set.
* A call that brings something else than what is wanted ends while one that brings it is pending.
* A call fails only if nothing depends on it. -/
def InTurn : Event → Prop
  | .apply id => ∀ info ∈ s.layoutInfos.find? (·.id = id), s.inCurrentGroup info = true →
      s.BringsKeymap (s.buildKeymap xkb info.group)
  | .keymapDone i ok => ∀ call ∈ s.keymapCalls[i]?,
      KeymapInTurn { s with keymapCalls := s.keymapCalls.eraseIdx i } call ok
  | .indexDone i ok => ∀ idx ∈ s.indexCalls[i]?,
      IndexInTurn { s with indexCalls := s.indexCalls.eraseIdx i } idx ok
  | _ => True

section Decidable

instance (s : State) (call : Keymap × ℕ) (ok : Bool) : Decidable (KeymapInTurn s call ok) := by
  unfold KeymapInTurn
  split <;> infer_instance

instance (s : State) (e : Event) : Decidable (InTurn xkb s e) := by
  unfold InTurn
  split <;> infer_instance

end Decidable

end KeyboardManager
