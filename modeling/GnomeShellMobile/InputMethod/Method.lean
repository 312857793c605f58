import GnomeShellMobile.Runs.Basic
import Mathlib.Data.Int.Notation

/-!
# InputMethod — between the focused client and IBus

`js/misc/inputMethod.js`: what the input method keeps of the client that has the focus, and what it
tells the input context of IBus and the client.

* `Context`, `State`: the input context as it was last set, and the fields of the input method.
* the handlers, under the words of the source, with the `vfunc_` left off.
* `step`: what the client, IBus, the on-screen keyboard and the main loop do.

Committing text, deleting it and forwarding keys only pass on what IBus sends and are left out.
-/

namespace InputMethod

/-- `Clutter.InputContentHintFlags`. -/
inductive ContentHint where
  | completion
  | spellcheck
  | autoCapitalization
  | lowercase
  | uppercase
  | titlecase
  | hiddenText
  | sensitiveData
  | latin
  | multiline
  deriving DecidableEq

/-- `IBus.InputHints`, as far as they are used. -/
inductive InputHint where
  | wordCompletion
  | spellcheck
  | uppercaseSentences
  | lowercase
  | uppercaseChars
  | uppercaseWords
  | priv
  deriving DecidableEq

/-- `Clutter.InputContentPurpose`. -/
inductive ContentPurpose where
  | normal
  | alpha
  | digits
  | number
  | phone
  | url
  | email
  | name
  | password
  | date
  | time
  | datetime
  | terminal
  deriving DecidableEq

/-- `IBus.InputPurpose`, as far as they are used. -/
inductive InputPurpose where
  | freeForm
  | alpha
  | digits
  | number
  | phone
  | url
  | email
  | name
  | password
  | terminal
  deriving DecidableEq

def ContentHint.toInputHint : ContentHint → Option InputHint
  | .completion => some .wordCompletion
  | .spellcheck => some .spellcheck
  | .autoCapitalization => some .uppercaseSentences
  | .lowercase => some .lowercase
  | .uppercase => some .uppercaseChars
  | .titlecase => some .uppercaseWords
  | .sensitiveData => some .priv
  | _ => none

def ContentPurpose.toInputPurpose : ContentPurpose → InputPurpose
  | .normal => .freeForm
  | .alpha => .alpha
  | .digits => .digits
  | .number => .number
  | .phone => .phone
  | .url => .url
  | .email => .email
  | .name => .name
  | .password => .password
  | .terminal => .terminal
  | _ => .freeForm

/-- `IBus.Capabilite`, as far as it is used. -/
structure Capabilities where
  preeditText : Bool
  focus : Bool
  surroundingText : Bool
  osk : Bool
  deriving DecidableEq

structure Rect where
  x : ℤ
  y : ℤ
  width : ℤ
  height : ℤ
  deriving DecidableEq

structure Context where
  capabilities : Capabilities
  contentType : InputPurpose × List InputHint
  cursorLocation : Rect
  focused : Bool
  surroundingText : Option (String × ℕ × ℕ)
  deriving DecidableEq

def Context.new : Context :=
  { capabilities := ⟨false, false, false, false⟩
    contentType := (.freeForm, [])
    cursorLocation := ⟨0, 0, 0, 0⟩
    focused := false
    surroundingText := none }

inductive Owner where
  | inputMethod
  | globalThis
  deriving DecidableEq

structure State where
  context : Option Context
  /-- The `_onConnected` that wait for a context and are not cancelled, and the last of them that
  `_cancellable` is of. -/
  pending : List ℕ
  cancellable : Option ℕ
  connections : ℕ
  hints : List InputHint
  purpose : InputPurpose
  currentFocus : Option ℕ
  preeditStr : Option String
  preeditPos : ℕ
  preeditAnchor : ℕ
  preeditVisible : Bool
  preeditCommitMode : Option ℕ
  hidePanelPending : Bool
  surroundingText : Option String
  surroundingTextCursor : Option ℕ
  surroundingTextAnchor : Option ℕ
  cursorRect : Option Rect
  /-- The handlers of `visibility-changed` on the keyboard. -/
  visibilityHandlers : List Owner
  keyboardVisible : Bool
  /-- The text that was last passed to `set_preedit_text`, unless there was a reset since. -/
  shown : Option String

namespace State

/-- The input method after `_init`, before IBus is connected. -/
def new (keyboardVisible : Bool) : State :=
  { context := none
    pending := []
    cancellable := none
    connections := 0
    hints := []
    purpose := .freeForm
    currentFocus := none
    preeditStr := some ""
    preeditPos := 0
    preeditAnchor := 0
    preeditVisible := false
    preeditCommitMode := none
    hidePanelPending := false
    surroundingText := none
    surroundingTextCursor := none
    surroundingTextAnchor := none
    cursorRect := none
    visibilityHandlers := []
    keyboardVisible := keyboardVisible
    shown := none }

variable (s : State)

def onContext (f : Context → Context) : State := { s with context := s.context.map f }

variable (text : Option String)

def setPreeditText : State := { s with shown := text }

/-- What `_updateCapabilities` passes to the context. -/
def capabilities : Capabilities :=
  { preeditText := true
    focus := true
    surroundingText := s.surroundingText.isSome
    osk := s.keyboardVisible }

def updateCapabilities : State :=
  s.onContext fun c => { c with capabilities := s.capabilities }

/-- `Main.keyboard.disconnectObject(obj)`. -/
def disconnectObject (obj : Owner) : State :=
  { s with visibilityHandlers := s.visibilityHandlers.filter (· ≠ obj) }

def onConnected : State :=
  { s with
    pending := s.pending ++ [s.connections]
    cancellable := some s.connections
    connections := s.connections + 1 }

/-- `_clear`. The request for a context that `_cancellable` is of comes to nothing. -/
def clear : State :=
  let s := s.disconnectObject .inputMethod
  { s with
    pending := s.pending.filter fun p => s.cancellable ≠ some p
    cancellable := none
    context := none
    hints := []
    purpose := .freeForm
    preeditStr := some ""
    preeditPos := 0
    preeditAnchor := 0
    preeditVisible := false }

/-- The rest of `_onConnected`. Its `connectObject` passes no object, and the handler is tracked for
the global object. -/
def onCreated : State :=
  updateCapabilities
    { s with
      context := some .new
      visibilityHandlers := s.visibilityHandlers ++ [.globalThis] }

def onUpdatePreeditText (pos : ℕ) (visible : Bool) (mode : ℕ) :
    State :=
  match text with
  | none => s
  | some text =>
    let preedit := if text = "" then none else some text
    let s :=
      if visible then s.setPreeditText preedit
      else if s.preeditVisible then s.setPreeditText none
      else s
    { s with
      preeditStr := preedit
      preeditPos := pos
      preeditAnchor := pos
      preeditVisible := visible
      preeditCommitMode := some mode }

def onShowPreeditText : State :=
  setPreeditText { s with preeditVisible := true } s.preeditStr

def onHidePreeditText : State :=
  { s.setPreeditText none with preeditVisible := false }

def update : State :=
  match s.context with
  | none => s
  | some _ =>
    let s := s.updateCapabilities.onContext fun c => { c with contentType := (s.purpose, s.hints) }
    match s.cursorRect with
    | none => s
    | some rect => s.onContext fun c => { c with cursorLocation := rect }

def focusIn (focus : ℕ) : State :=
  let s := { s with currentFocus := some focus }
  let s := s.update.onContext fun c => { c with focused := true }
  { s with hidePanelPending := false }

def fullReset : State :=
  s.onContext fun c => { c with contentType := (.freeForm, []), cursorLocation := ⟨0, 0, 0, 0⟩ }

def truthy : Option String → Bool
  | none => false
  | some text => text ≠ ""

def focusOut : State :=
  let s := { s with currentFocus := none }
  let s := s.fullReset.onContext fun c => { c with focused := false }
  let s :=
    if truthy s.preeditStr && s.preeditVisible then
      { s.setPreeditText none with preeditStr := none }
    else s
  { s with hidePanelPending := true }

/-- `vfunc_reset`. The client drops its preedit text. -/
def reset : State :=
  { s with
    shown := none
    surroundingText := none
    surroundingTextCursor := none
    surroundingTextAnchor := none
    preeditStr := none }

def setCursorLocation (rect : Rect) : State :=
  match s.context with
  | none => s
  | some _ => { s with cursorRect := some rect }.onContext fun c => { c with cursorLocation := rect }

def setSurrounding (cursor anchor : ℕ) : State :=
  let updateCapabilities := s.surroundingText.isSome ≠ text.isSome
  let s :=
    { s with
      surroundingText := text
      surroundingTextCursor := some cursor
      surroundingTextAnchor := some anchor }
  match text with
  | none => s
  | some text =>
    let s := if updateCapabilities then s.updateCapabilities else s
    s.onContext fun c => { c with surroundingText := some (text, cursor, anchor) }

def updateContentHints (hints : List ContentHint) : State :=
  let s := { s with hints := hints.filterMap ContentHint.toInputHint }
  s.onContext fun c => { c with contentType := (s.purpose, s.hints) }

def updateContentPurpose (purpose : ContentPurpose) : State :=
  let s := { s with purpose := purpose.toInputPurpose }
  s.onContext fun c => { c with contentType := (s.purpose, s.hints) }

def hasPreedit : Bool :=
  s.preeditVisible && s.preeditStr ≠ some "" && s.preeditStr ≠ none

def visibilityChanged (visible : Bool) : State :=
  s.visibilityHandlers.foldl (fun s _ => s.updateCapabilities) { s with keyboardVisible := visible }

end State

inductive Event where
  | connected
  | created (p : ℕ)
  | createFailed (p : ℕ)
  | lost
  | updatePreeditText (text : Option String) (pos : ℕ) (visible : Bool) (mode : ℕ)
  | showPreeditText
  | hidePreeditText
  | focusIn (focus : ℕ)
  | focusOut
  /-- The timeout of `HIDE_PANEL_TIME`. -/
  | hidePanel
  | reset
  | setCursorLocation (rect : Rect)
  | setSurrounding (text : Option String) (cursor anchor : ℕ)
  | updateContentHints (hints : List ContentHint)
  | updateContentPurpose (purpose : ContentPurpose)
  | canShowPreedit
  | visibilityChanged (visible : Bool)
  deriving DecidableEq

open State in
def step (s : State) : Event → Option State
  | .connected => some s.onConnected
  | .created p =>
    if p ∈ s.pending then some { s with pending := s.pending.erase p }.onCreated else none
  | .createFailed p =>
    if p ∈ s.pending then some { s with pending := s.pending.erase p }.clear else none
  | .lost => some s.clear
  | .updatePreeditText text pos visible mode => some (s.onUpdatePreeditText text pos visible mode)
  | .showPreeditText => some s.onShowPreeditText
  | .hidePreeditText => some s.onHidePreeditText
  | .focusIn focus => if s.currentFocus = none then some (s.focusIn focus) else none
  | .focusOut => if s.currentFocus ≠ none then some s.focusOut else none
  | .hidePanel => if s.hidePanelPending then some { s with hidePanelPending := false } else none
  | .reset => some s.reset
  | .setCursorLocation rect => some (s.setCursorLocation rect)
  | .setSurrounding text cursor anchor => some (s.setSurrounding text cursor anchor)
  | .updateContentHints hints => some (s.updateContentHints hints)
  | .updateContentPurpose purpose => some (s.updateContentPurpose purpose)
  | .canShowPreedit => some s.updateCapabilities
  | .visibilityChanged visible => some (s.visibilityChanged visible)

end InputMethod
