import GnomeShellMobile.ScreenShield.Shield

/-!
# Gdm — unlocking without GDM

The prompt of the unlock dialog (`AuthPrompt`), its verifier (`ShellUserVerifier`) and the
verifier that stands in for GDM (`PamUserVerifier`), over the screen shield. Verifiers and
cancellables are named by numbers that are never used again. What goes on later is listed: the
channels to GDM that are being opened, the idle callbacks that ask for the password, the handlers
of `no-more-messages`, the settled promises and the PAM helpers. A promise that is settled goes on
before anything else happens.

The shield has one dialog at most, so that the fields of its prompt lie flat in the state. Of a
prompt that is destroyed everything but its helpers is cancelled; nothing of it comes back.
The reauthentication always has a user name, so that it may always be tried again. Fingerprints
are left out: the PAM verifier says that their service is unavailable. So is the sensitivity of
the entry: a password may be entered at any time.

`epoch`, `sliding` and `log` are bookkeeping that the source does not have.
-/

namespace Gdm

inductive Service where
  | password
  | fingerprint
  | smartcard
  | credentials
  deriving DecidableEq, Repr

inductive MessageType where
  | none
  | hint
  | info
  | error
  deriving DecidableEq, Repr

def MessageType.toNat : MessageType → Nat
  | .none => 0
  | .hint => 1
  | .info => 2
  | .error => 3

/-- An entry of `_messageQueue`. A text of `none` clears the prompt. -/
structure Message where
  serviceName : Option Service
  text : Option String
  type : MessageType
  deriving DecidableEq, Repr

def Message.outlives (m message : Message) : Bool :=
  if m.serviceName ≠ message.serviceName ∨ message.type.toNat ≤ m.type.toNat then
    m.text ≠ message.text
  else false

inductive AuthPromptStatus where
  | notVerifying
  | verifying
  | verificationFailed
  | verificationSucceeded
  | verificationCancelled
  | verificationInProgress
  deriving DecidableEq, Repr

/-- What becomes of an answer that is given to the PAM verifier: the helper cannot be started, or
PAM rejects or accepts the password it is given. -/
inductive Fate where
  | spawnFails
  | rejected
  | accepted
  deriving DecidableEq, Repr

structure Helper where
  verifier : Nat
  epoch : Nat
  fate : Fate
  deriving DecidableEq, Repr

/-- What goes on after `_handlePendingMessages`. -/
inductive Task where
  | answer (fate : Fate)
  | retry
  | cancelAndReset
  deriving DecidableEq, Repr

inductive Handler where
  /-- of `_handlePendingMessages`, with the cancellable of that moment -/
  | promise (cancellable : Option Nat) (task : Task)
  /-- of `finish`, with the animation asked of `deactivate` and the helper it was called by -/
  | finish (animate : Bool) (cause : Option Helper)
  deriving DecidableEq, Repr

inductive ChannelError where
  | noGdm
  | failed
  deriving DecidableEq, Repr

inductive Effect where
  | unlocking (by_ : Helper) (inUse : Option Nat) (epoch : Nat)
  | unlocked (by_ : Helper) (epoch : Nat)
  deriving DecidableEq, Repr

structure State where
  shield : ScreenShield.State := {}
  verificationStatus : AuthPromptStatus := .notVerifying
  queryingService : Option Service := none
  preemptiveAnswer : Option Fate := none
  cancellable : Option Nat := none
  userVerifier : Option Nat := none
  /-- the signals of `_userVerifier` are connected -/
  connected : Bool := false
  messageQueue : List Message := []
  /-- the handlers of `no-more-messages`, the oldest first -/
  handlers : List Handler := []
  /-- `_getForegroundService()` -/
  foreground : Service := .password
  settled : List Task := []
  /-- the channels being opened, each with its cancellable -/
  openings : List Nat := []
  /-- the idle callbacks of `_begin`, each with its verifier -/
  idles : List Nat := []
  helpers : List Helper := []
  cancelled : List Nat := []
  nextId : Nat := 0
  epoch : Nat := 0
  sliding : Option Helper := none
  log : List Effect := []
  deriving DecidableEq, Repr

namespace State

variable (s : State)

def hasPendingMessages : Bool := !s.messageQueue.isEmpty

/-! ## The verifier begins and ends -/

/-- `clear` with an empty queue: the cancellable is cancelled and the verifier let go. -/
def dropVerifier : State :=
  { s with
    cancelled := s.cancellable.toList ++ s.cancelled
    cancellable := none
    userVerifier := none
    connected := false }

/-- `begin`, of the prompt and of its verifier. -/
def begin : State :=
  { s with
    nextId := s.nextId + 1
    cancellable := some s.nextId
    userVerifier := none
    connected := false
    openings := s.openings ++ [s.nextId]
    verificationStatus := .verifying }

/-- The prompt is destroyed. The handlers that are called then find everything cancelled, and the
shield hidden; and so do the channels and idle callbacks of the prompt later. -/
def destroyPrompt : State :=
  { s.dropVerifier with messageQueue := [], handlers := [], openings := [], idles := [] }

/-- A dialog is created with a new prompt, which begins at once. If the dialog gets no grab,
`deactivate` clears the verifier. -/
def newPrompt (opened : Bool) : State :=
  let s := { s with
    verificationStatus := .notVerifying
    queryingService := none
    preemptiveAnswer := none
    cancellable := none
    userVerifier := none
    connected := false
    messageQueue := []
    handlers := [] }.begin
  if opened then s else s.dropVerifier

/-- The shield has taken a step, and the prompt comes and goes with the dialog. An animation that
the shield has started on its own is no helper's. -/
def follow (shield : ScreenShield.State) : State :=
  let s' := { s with
    shield
    sliding :=
      if s.shield.dialog.isSome ∧ shield.slide = s.shield.slide then s.sliding else none }
  match s.shield.dialog, shield.dialog with
  | some _, none => s'.destroyPrompt
  | none, some opened => s'.newPrompt opened
  | none, none | some _, some _ => s'

/-! ## Unlocking -/

/-- `_continueDeactivate`, called by `cause` while `inUse` was the verifier. -/
def continueDeactivate (inUse : Option Nat) (animated : Bool) (cause : Option Helper) : State :=
  match s.shield.continueDeactivate animated with
  | none => s
  | some shield =>
      { s.follow shield with
        sliding := cause
        log := (cause.map fun h => .unlocking h inUse s.epoch).toList ++ s.log }

/-- What `finish` does when there is no message left: the verifier is cleared, and the shield goes
on. -/
def finished (animate animates : Bool) (cause : Option Helper) : State :=
  s.dropVerifier.continueDeactivate s.userVerifier (animate && animates) cause

def finish (animate animates : Bool) (cause : Option Helper) : State :=
  if s.hasPendingMessages then { s with handlers := s.handlers ++ [.finish animate cause] }
  else s.finished animate animates cause

/-- `deactivate`, called by the helper `cause`, or by something else. -/
def deactivate (animate animates : Bool) (cause : Option Helper) : State :=
  let s := { s with shield.held := false }
  if s.shield.dialog.isSome then s.finish animate animates cause
  else s.continueDeactivate s.userVerifier (animate && animates) cause

/-! ## Messages -/

variable (animates : Bool)

/-- A handler of `no-more-messages` is called. Without a cancellable it throws; in a prompt that
has been destroyed meanwhile it does nothing. -/
def runHandler : Handler → State
  | .promise none _ => s
  | .promise (some c) task =>
      if c ∈ s.cancelled then s else { s with settled := s.settled ++ [task] }
  | .finish animate cause =>
      if s.shield.dialog.isSome then s.finished animate animates cause else s

/-- `finishMessageQueue`. The handlers are called in the order in which they were connected. -/
def finishMessageQueue : State :=
  if s.hasPendingMessages then
    s.handlers.foldl (fun s handler => s.runHandler animates handler)
      { s with messageQueue := [], handlers := [] }
  else s

def handlePendingMessages (task : Task) : State :=
  if s.hasPendingMessages then
    { s with handlers := s.handlers ++ [.promise s.cancellable task] }
  else { s with settled := s.settled ++ [task] }

def queueMessage (message : Message) : State :=
  { s with messageQueue := s.messageQueue ++ [message] }

/-- `_queuePriorityMessage`. The queue is cleared first if the message on show is not kept. -/
def queuePriorityMessage (message : Message) : State :=
  let queue := s.messageQueue.filter fun m => m.outlives message
  let s := if s.messageQueue.head?.any fun m => m.outlives message then s
    else s.finishMessageQueue animates
  { s with messageQueue := queue }.queueMessage message

def filterServiceMessages (serviceName : Option Service) (type : MessageType) :
    State :=
  if s.messageQueue.any fun m => m.serviceName = serviceName then
    s.queuePriorityMessage animates ⟨serviceName, none, type⟩
  else s

/-! ## Verification -/

def clear : State := s.dropVerifier.finishMessageQueue animates

def cancel : State :=
  let s := { s with cancelled := s.cancellable.toList ++ s.cancelled }
  if s.userVerifier.isSome then s.clear animates else s

/-- `AuthPrompt.reset`, with the `begin` it leads to. It throws when the prompt is destroyed under
it. -/
def reset : State :=
  let s := { s with verificationStatus := .notVerifying, preemptiveAnswer := none }.cancel animates
  if s.shield.dialog.isSome then { s with queryingService := none }.begin else s

/-- `AuthPrompt.cancel`. A cancelled prompt is reset as well, by `_fail`. -/
def cancelPrompt : State :=
  if s.verificationStatus = .verificationSucceeded then s else s.reset animates

/-- `_onSmartcardStatusChanged` and `_onCredentialManagerAuthenticated`. -/
def preempt : State :=
  if s.verificationStatus = .verificationSucceeded then s else s.reset animates

def cancelAndReset : State :=
  let s := s.cancel animates
  if s.shield.dialog.isSome then s.reset animates else s

variable (verifier : Nat)

/-- `PamUserVerifier._begin`; only the password service is served. -/
def beginService (serviceName : Service) : State :=
  if serviceName = .password then { s with idles := s.idles ++ [verifier] } else s

def usePamFallback : State :=
  { s with
    nextId := s.nextId + 1
    userVerifier := some s.nextId
    connected := true }.beginService s.nextId s.foreground

def verificationFailed (animates : Bool) (serviceName : Option Service) (shouldRetry : Bool) :
    State :=
  let s := s.filterServiceMessages animates serviceName .error
  let s := { s with
    queryingService := if s.queryingService = serviceName then none else s.queryingService
    verificationStatus := if shouldRetry then .verifying else .verificationFailed }
  if shouldRetry then s.handlePendingMessages .retry
  else { s with connected := false }.handlePendingMessages .cancelAndReset

def reportInitError : State :=
  (s.queueMessage ⟨none, some "Authentication error", .error⟩).verificationFailed animates none
    false

/-- `_openReauthenticationChannel` goes on with an error. -/
def channelFailed (cancellable : Nat) (error : ChannelError) : State :=
  if cancellable ∈ s.cancelled then s
  else match error with
    | .noGdm => s.usePamFallback
    | .failed => s.reportInitError animates

def retry : State :=
  match s.userVerifier with
  | none => s
  | some verifier => { s with connected := true }.beginService verifier .password

def Listens : Prop := s.userVerifier = some verifier ∧ s.connected = true
deriving Decidable

def onInfo (info : String) : State :=
  if s.foreground = .password then s.queueMessage ⟨some .password, some info, .info⟩ else s

def onConversationStopped : State :=
  (s.filterServiceMessages animates (some .password) .error).verificationFailed animates
    (some .password) true

/-! ## Answers -/

def callAnswerQuery (verifier : Nat) (fate : Fate) : State :=
  match fate with
  | .spawnFails => if s.Listens verifier then s.onConversationStopped animates else s
  | .rejected | .accepted => { s with helpers := s.helpers ++ [⟨verifier, s.epoch, fate⟩] }

def answerQuery (fate : Fate) : State := s.handlePendingMessages (.answer fate)

def runTask : Task → State
  | .answer fate =>
      match s.userVerifier with
      | none => s
      | some verifier => s.callAnswerQuery animates verifier fate
  | .retry => s.retry
  | .cancelAndReset => s.cancelAndReset animates

def activateNext (fate : Fate) : State :=
  let s := { s with verificationStatus := .verificationInProgress }
  if s.queryingService.isSome then s.answerQuery fate else { s with preemptiveAnswer := some fate }

def onAskQuestion : State :=
  let s := { s with queryingService := some .password }
  match s.preemptiveAnswer with
  | some fate => { s.answerQuery fate with preemptiveAnswer := none }
  | none => s

/-- The idle callback of `_begin`, with `_onSecretInfoQuery`. -/
def secretInfoQuery : State :=
  if s.Listens verifier ∧ s.foreground = .password then s.onAskQuestion else s

/-- The callback of `call_answer_query`, when the helper `h` has finished. -/
def helperFinished (h : Helper) : State :=
  if h.fate = .accepted then
    let s := if s.Listens h.verifier then { s with verificationStatus := .verificationSucceeded }
      else s
    s.deactivate true animates (some h)
  else if s.Listens h.verifier then
    (s.onInfo "Sorry, that didn’t work. Please try again.").onConversationStopped animates
  else s

def messageRead : State :=
  if 1 < s.messageQueue.length then { s with messageQueue := s.messageQueue.tail }
  else s.finishMessageQueue animates

/-! ## The shield -/

def lock (animate showLater : Bool) (now : Nat) (w : ScreenShield.Answers) : State :=
  let shield := s.shield.lock animate showLater now w
  { s.follow shield with
    epoch := if s.shield.held = false ∧ shield.held = true then s.epoch + 1 else s.epoch }

def activateDialog (w : ScreenShield.Answers) : State :=
  if s.shield.isLocked then s.follow (s.shield.ensureUnlockDialog w).1
  else s.deactivate true w.animates none

def slidUp : List Effect :=
  if s.shield.slide = some (.up false) then (s.sliding.map fun h => .unlocked h s.epoch).toList
  else []

/-- An event of the shield. The messages it asks about are those of the prompt, and the handlers
that wait for them are called with the others. -/
def stepShield (e : ScreenShield.Event) : Option State :=
  match e with
  | .lock animate showLater now w => some (s.lock animate showLater now w)
  | .deactivate animate pending w =>
      if pending = s.hasPendingMessages then some (s.deactivate animate w.animates none) else none
  | .activateDialog pending w =>
      if pending = s.hasPendingMessages then some (s.activateDialog w) else none
  | .noMoreMessages _ _ => none
  | .slideFinished =>
      (s.shield.step .slideFinished).map fun shield =>
        { s.follow shield with log := s.slidUp ++ s.log }
  | .activate _ _ _ _ | .showLater | .becomeModal _ | .showDialog _ | .slideInterrupted
  | .changeSettings _ _ => (s.shield.step e).map s.follow

end State

/-- What can happen; `animates` tells that an animation of the shield is run. -/
inductive Event where
  /-- a password is entered -/
  | answer (fate : Fate)
  /-- the idle callback at position `i` asks for the password -/
  | question (i : Nat)
  /-- the channel at position `i` cannot be opened -/
  | channel (i : Nat) (error : ChannelError) (animates : Bool)
  /-- the helper at position `i` has finished -/
  | helper (i : Nat) (animates : Bool)
  | messageRead (animates : Bool)
  | goOn (animates : Bool)
  | cancel (animates : Bool)
  | preempt (animates : Bool)
  | cancelAndReset (animates : Bool)
  | foreground (service : Service)
  | shield (e : ScreenShield.Event)
  deriving DecidableEq, Repr

namespace State

def stepEvent (s : State) : Event → Option State
  | .answer fate => if s.shield.dialog.isSome then some (s.activateNext fate) else none
  | .question i => s.idles[i]?.map { s with idles := s.idles.eraseIdx i }.secretInfoQuery
  | .channel i error animates =>
      s.openings[i]?.map fun c =>
        { s with openings := s.openings.eraseIdx i }.channelFailed animates c error
  | .helper i animates =>
      s.helpers[i]?.map ({ s with helpers := s.helpers.eraseIdx i }.helperFinished animates)
  | .messageRead animates => if s.hasPendingMessages then some (s.messageRead animates) else none
  | .goOn _ => none
  | .cancel animates => if s.shield.dialog.isSome then some (s.cancelPrompt animates) else none
  | .preempt animates => if s.shield.dialog.isSome then some (s.preempt animates) else none
  | .cancelAndReset animates =>
      if s.shield.dialog.isSome then some (s.cancelAndReset animates) else none
  | .foreground service => some { s with foreground := service }
  | .shield e => s.stepShield e

def step (s : State) (e : Event) : Option State :=
  match s.settled, e with
  | task :: rest, .goOn animates => some ({ s with settled := rest }.runTask animates task)
  | _ :: _, _ => none
  | [], e => s.stepEvent e

def init (env : ScreenShield.Env) : State := { shield := .init env }

end State

end Gdm
