import GnomeShellMobile.Runs.Basic
import Mathlib.Algebra.GroupWithZero.Nat
import Mathlib.Data.List.Nodup

/-!
# UserVerifier — the messages of the user verifier

The message queue of `ShellUserVerifier` in `js/gdm/util.js`, with the promises of
`_handlePendingMessages` and the other listeners of `no-more-messages`.

Messages, cancellables and connections are JavaScript objects; they have numbers here. Times are in
milliseconds.
-/

namespace UserVerifier

inductive MessageType where
  | none
  | hint
  | info
  | error
deriving DecidableEq, Repr

def MessageType.toNat : MessageType → ℕ
  | none => 0
  | hint => 1
  | info => 2
  | error => 3

def userReadTime : ℕ := 48

/-- `length` of a string, in code units of UTF-16. -/
def length (s : String) : ℕ := (s.toList.map fun c => if c.toNat < 0x10000 then 1 else 2).sum

def getIntervalForMessage : Option String → ℕ
  | none => 0
  | some message => length message * userReadTime

structure Message where
  id : ℕ
  serviceName : Option String
  text : Option String
  type : MessageType
  interval : ℕ
deriving DecidableEq

inductive Handler where
  /-- The one of `_handlePendingMessages`, with the cancellable it has captured. -/
  | promise (cancellable : Option ℕ)
  /-- One that calls `clear`, like the one of `AuthPrompt.finish`, which disconnects itself. -/
  | clearing (once : Bool)
deriving DecidableEq

structure Connection where
  id : ℕ
  handler : Handler
deriving DecidableEq

structure State where
  now : ℕ
  messageQueue : List Message
  /-- When the source of `_messageQueueTimeoutId` is due. -/
  messageQueueTimeout : Option ℕ
  cancellable : Option ℕ
  cancelled : List ℕ
  /-- What `show-message` was emitted with last, and when. -/
  shown : Option Message
  shownAt : ℕ
  connections : List Connection
  /-- The promises of `_handlePendingMessages`, by their connections. -/
  unsettled : List ℕ
  resolved : List ℕ
  rejected : List ℕ
  nextId : ℕ
deriving DecidableEq

namespace State

def new : State where
  now := 0
  messageQueue := []
  messageQueueTimeout := none
  cancellable := none
  cancelled := []
  shown := none
  shownAt := 0
  connections := []
  unsettled := []
  resolved := []
  rejected := []
  nextId := 0

variable (s : State)

def hasPendingMessages : Bool := s.messageQueue ≠ []

def currentMessage : Option Message := s.messageQueue.head?

def disconnect (id : ℕ) : State :=
  { s with connections := s.connections.filter (·.id ≠ id) }

/-- The promise `id` is resolved, or rejected. -/
def settle (id : ℕ) (reject : Bool) : State :=
  if reject then
    { s with unsettled := s.unsettled.filter (· ≠ id), rejected := id :: s.rejected }
  else { s with unsettled := s.unsettled.filter (· ≠ id), resolved := id :: s.resolved }

variable (finish : State → State)

def clearMessageQueue (s : State) : State :=
  { finish s with messageQueueTimeout := none, shown := none, shownAt := s.now }

def cancelCancellable : State :=
  match s.cancellable with
  | none => s
  | some cancellable => { s with cancelled := cancellable :: s.cancelled }

def clear (s : State) : State :=
  clearMessageQueue finish { s.cancelCancellable with cancellable := none }

def callHandler (s : State) (c : Connection) : State :=
  if c ∈ s.connections then
    match c.handler with
    | .promise cancellable =>
      let s := s.disconnect c.id
      match cancellable with
      -- `null` has no `is_cancelled`
      | none => s
      | some cancellable => s.settle c.id (cancellable ∈ s.cancelled)
    | .clearing once => clear finish (if once then s.disconnect c.id else s)
  else s

/-- `finishMessageQueue`. A handler that calls it again finds the queue empty, so that one turn of
it is enough. -/
def finishMessageQueue : ℕ → State → State
  | 0, s => s
  | depth + 1, s =>
    if s.hasPendingMessages then
      s.connections.foldl (callHandler (finishMessageQueue depth)) { s with messageQueue := [] }
    else s

/-- `_queueMessageTimeout`; a listener of `show-message` asks for `extra` time. -/
def queueMessageTimeout (extra : ℕ) : State :=
  if s.messageQueueTimeout = none then
    match s.currentMessage with
    | none => s
    | some message =>
      { s with
        shown := some message
        shownAt := s.now
        messageQueueTimeout := some (s.now + (message.interval + extra)) }
  else s

def queueMessage (serviceName text : Option String) (type : MessageType) (extra : ℕ) :
    State :=
  let message := ⟨s.nextId, serviceName, text, type, getIntervalForMessage text⟩
  { s with
    messageQueue := s.messageQueue ++ [message]
    nextId := s.nextId + 1 }.queueMessageTimeout extra

/-- The filter of `_queuePriorityMessage`. -/
def stays (serviceName text : Option String) (type : MessageType) (m : Message) : Bool :=
  if m.serviceName ≠ serviceName ∨ m.type.toNat ≥ type.toNat then m.text ≠ text else false

def includesCurrent (newQueue : List Message) : Bool :=
  match s.currentMessage with
  | none => false
  | some message => message ∈ newQueue

def queuePriorityMessage (serviceName text : Option String) (type : MessageType)
    (extra : ℕ) : State :=
  let newQueue := s.messageQueue.filter (stays serviceName text type)
  let s := if s.includesCurrent newQueue then s else clearMessageQueue (finishMessageQueue 1) s
  { s with messageQueue := newQueue }.queueMessage serviceName text type extra

def filterServiceMessages (serviceName : Option String) (type : MessageType)
    (extra : ℕ) : State :=
  if s.messageQueue.any (·.serviceName = serviceName) then
    s.queuePriorityMessage serviceName none type extra
  else s

def timedOut (extra : ℕ) : State :=
  let s := { s with messageQueueTimeout := none }
  if s.messageQueue.length > 1 then
    { s with messageQueue := s.messageQueue.tail }.queueMessageTimeout extra
  else finishMessageQueue 1 s

def handlePendingMessages : State :=
  if s.hasPendingMessages then
    { s with
      connections := s.connections ++ [⟨s.nextId, .promise s.cancellable⟩]
      unsettled := s.unsettled ++ [s.nextId]
      nextId := s.nextId + 1 }
  else s

/-- `begin`, as far as it is about the cancellable. -/
def begin : State := { s with cancellable := some s.nextId, nextId := s.nextId + 1 }

def cancel (userVerifier : Bool) : State :=
  let s := s.cancelCancellable
  if userVerifier then clear (finishMessageQueue 1) s else s

def connectClearing (once : Bool) : State :=
  { s with
    connections := s.connections ++ [⟨s.nextId, .clearing once⟩]
    nextId := s.nextId + 1 }

end State

inductive Op where
  | queueMessage (serviceName text : Option String) (type : MessageType) (extra : ℕ)
  | queuePriorityMessage (serviceName text : Option String) (type : MessageType) (extra : ℕ)
  | filterServiceMessages (serviceName : Option String) (type : MessageType) (extra : ℕ)
  | wait (time : ℕ)
  | timedOut (extra : ℕ)
  | handlePendingMessages
  | connectClearing (once : Bool)
  | begin
  | clear
  | cancel (userVerifier : Bool)
deriving DecidableEq

def step (s : State) : Op → Option State
  | .queueMessage serviceName text type extra => some (s.queueMessage serviceName text type extra)
  | .queuePriorityMessage serviceName text type extra =>
    some (s.queuePriorityMessage serviceName text type extra)
  | .filterServiceMessages serviceName type extra =>
    some (s.filterServiceMessages serviceName type extra)
  | .wait time => some { s with now := s.now + time }
  | .timedOut extra =>
    match s.messageQueueTimeout with
    | none => none
    | some due => if due ≤ s.now then some (s.timedOut extra) else none
  | .handlePendingMessages => some s.handlePendingMessages
  | .connectClearing once => some (s.connectClearing once)
  | .begin => some s.begin
  | .clear => some (s.clear (State.finishMessageQueue 1))
  | .cancel userVerifier => some (s.cancel userVerifier)

end UserVerifier
