import GnomeShellMobile.Gdm.PamFallback
import GnomeShellMobile.Runs.Pool
import GnomeShellMobile.ScreenShield.LockHeld

/-!
# Gdm — an unlock is earned

A PAM helper that succeeds unlocks the shield, whatever has become of the verifier it was started
by: the callback of `call_answer_query` does not look at it. This module says what must be left
alone while a helper is at work for an unlock to be earned: by an answer that was given to the
verifier still in use, in the lock that still stands.

* `Undisturbed` — what must not happen while a helper that PAM is going to accept runs, or an
  unlock of its waits or slides.
* `Attended` — the invariant: such a helper was started by the verifier in use, in this lock.
* `Earned` — what is claimed of everything the helpers have done.
-/

namespace ScreenShield.State

variable {s : State}

/-! ## The shield keeps its dialog -/

theorem ensureUnlockDialog_of_dialog (h : s.dialog.isSome) (w : Answers) :
    s.ensureUnlockDialog w = (s, some true) := if_pos h

theorem activate_of_dialog (h : s.dialog.isSome) (animate showLater : Bool) (now : Nat)
    (w : Answers) : ∃ s', s.activate animate showLater now w = (s', true) := by
  unfold activate
  extract_lets t
  have ht : t.dialog.isSome := by
    unfold t
    split <;> exact h
  rw [ensureUnlockDialog_of_dialog ht]
  exact ⟨_, rfl⟩

theorem slideFinished_dialog {slide : Slide} (h : slide ≠ .up false) :
    (s.slideFinished slide).dialog = s.dialog := by
  cases slide with
  | down =>
      have hview : (s.slideFinished .down).view = s.view := lockScreenShown_view
      simp only [view, Prod.mk.injEq] at hview
      exact hview.2.2.1
  | up greeter =>
      cases greeter with
      | true => rfl
      | false => exact absurd rfl h

theorem showLater_dialog : s.showLater.dialog = s.dialog := by
  have hview : s.showLater.view = s.view := lockScreenShown_view.trans pushUnlockMode_view
  simp only [view, Prod.mk.injEq] at hview
  exact hview.2.2.1

theorem lock_of_dialog (h : s.dialog.isSome) (animate showLater : Bool) (now : Nat) (w : Answers) :
    (s.lock animate showLater now w).dialog.isSome ∧
      (s.held = false → (s.lock animate showLater now w).held = true →
        (showLater = true → s.slide ≠ some (.up false)) →
        (s.lock animate showLater now w).slide ≠ some (.up false)) := by
  unfold lock
  split
  · exact ⟨h, fun hs ht => absurd (hs.symm.trans ht) Bool.false_ne_true⟩
  · obtain ⟨m, hm⟩ := becomeModal_eq (s := s) w.grabs
    rw [hm]
    cases m with
    | false => exact ⟨h, fun hs ht => absurd (hs.symm.trans ht) Bool.false_ne_true⟩
    | true =>
        have hmodal : { s with isModal := true }.dialog.isSome := h
        obtain ⟨s', hs'⟩ := activate_of_dialog hmodal animate showLater now w
        obtain ⟨-, hdialog, -, -, -, hslide⟩ := activate_of_returned (.inl hmodal) hs'
        dsimp only
        rw [hs']
        exact ⟨hdialog, fun _ _ => hslide⟩

theorem showDialog_dialog {s' : State} {w : Answers} (h : s.dialog.isSome)
    (heq : s.showDialog w = some s') : s'.dialog.isSome := by
  obtain ⟨m, hm⟩ := becomeModal_eq (s := s) w.grabs
  rw [showDialog, hm] at heq
  cases m with
  | false => cases heq
  | true =>
      cases heq
      rw [ensureUnlockDialog_of_dialog (by exact h)]
      exact h

def Unlocks : Event → Bool
  | .deactivate _ _ _ | .activateDialog _ _ | .noMoreMessages _ _ | .slideFinished => true
  | _ => false

theorem step_dialog {e : Event} {s' : State} (h : s.dialog.isSome) (he : Unlocks e = false)
    (hstep : s.step e = some s') : s'.dialog.isSome := by
  cases e with
  | lock animate showLater now w =>
      cases hstep
      exact (lock_of_dialog h animate showLater now w).1
  | activate animate showLater now w =>
      cases hstep
      obtain ⟨t, ht⟩ := activate_of_dialog h animate showLater now w
      rw [ht]
      exact (activate_of_returned (.inl h) ht).2.1
  | showLater =>
      cases hstep
      rw [showLater_dialog]
      exact h
  | becomeModal grabs =>
      cases hstep
      obtain ⟨m, hm⟩ := becomeModal_eq (s := s) grabs
      rw [hm]
      exact h
  | showDialog w => exact showDialog_dialog h hstep
  | slideInterrupted =>
      obtain ⟨-, heq⟩ := Option.ite_none_right_eq_some.mp hstep
      cases heq
      have hview := removeTransitions_shownView (s := s)
      simp only [shownView, Prod.mk.injEq] at hview
      rw [hview.2.1]
      exact h
  | changeSettings disableLock passwordNone =>
      cases hstep
      exact h
  | deactivate | activateDialog | noMoreMessages | slideFinished => cases he

end ScreenShield.State

namespace Gdm

/-- The helper that has called `deactivate` and waits for the messages. -/
def Handler.helper : Handler → Option Helper
  | .promise _ _ => none
  | .finish _ cause => cause

/-- A call of `deactivate` that waits for the messages, and the helper it was called by. -/
def Handler.cause : Handler → Option (Option Helper)
  | .promise _ _ => none
  | .finish _ cause => some cause

def Effect.Earned : Effect → Prop
  | .unlocking h inUse epoch => inUse = some h.verifier ∧ epoch = h.epoch
  | .unlocked h epoch => epoch = h.epoch

namespace State

variable (s : State)

def Earned : Prop := ∀ e ∈ s.log, e.Earned

def Idle : Prop := ∀ h ∈ s.helpers, h.fate ≠ .accepted
deriving Decidable

def waiting : List Helper := s.handlers.filterMap Handler.helper

/-- The calls of `deactivate` that wait for the messages. -/
def causes : List (Option Helper) := s.handlers.filterMap Handler.cause

def Quiet : Prop := s.Idle ∧ s.waiting = []
deriving Decidable

/-- If a call of `deactivate` waits for the messages, no helper is going to be accepted, and only
the call that goes on first may be a helper's. -/
def FinishSafe : Prop := s.causes ≠ [] → s.Idle ∧ ∀ cause ∈ s.causes.tail, cause = none
deriving Decidable

/-- Nothing else ends the verification or locks the shield anew while a helper is going to unlock
it; and a new lock with `showLater` does not leave the shield sliding up for a helper. -/
def UndisturbedBy (s : State) : ScreenShield.Event → Prop
  | .lock animate showLater now w =>
      s.shield.held = false → (s.shield.lock animate showLater now w).held = true →
        s.Quiet ∧ (showLater = true → s.sliding.isSome → s.shield.slide ≠ some (.up false))
  | .deactivate _ _ _ => s.shield.dialog.isSome → s.messageQueue = [] → s.Quiet
  | .activateDialog _ _ =>
      s.shield.isLocked = false → s.shield.dialog.isSome → s.messageQueue = [] → s.Quiet
  | .slideFinished => s.shield.slide = some (.up false) → s.Quiet
  | _ => True

def UndisturbedTask (s : State) : Task → Prop
  | .answer fate => fate = .spawnFails → s.FinishSafe
  | .retry => True
  | .cancelAndReset => s.Quiet

/-- The same of every event. A helper that is accepted is the last one, when it unlocks the shield
at once; and where the messages are cleared, the calls of `deactivate` that wait for them go on. -/
def Undisturbed (s : State) : Event → Prop
  | .answer _ | .question _ | .foreground _ => True
  | .channel i _ _ => (∀ c ∈ s.openings[i]?, c ∉ s.cancelled) → s.Quiet
  | .helper i _ => ∀ h ∈ s.helpers[i]?,
      if h.fate = .accepted then
        s.shield.dialog.isSome → s.messageQueue = [] →
          { s with helpers := s.helpers.eraseIdx i }.Quiet
      else s.Listens h.verifier → s.FinishSafe
  | .messageRead _ => s.messageQueue.length ≤ 1 → s.FinishSafe
  | .goOn _ => ∀ task ∈ s.settled.head?, s.UndisturbedTask task
  | .cancel _ | .preempt _ => s.verificationStatus ≠ .verificationSucceeded → s.Quiet
  | .cancelAndReset _ => s.Quiet
  | .shield e => s.UndisturbedBy e

instance (e : ScreenShield.Event) : Decidable (s.UndisturbedBy e) := by
  rcases e with _ | _ <;> unfold UndisturbedBy <;> infer_instance

instance (task : Task) : Decidable (s.UndisturbedTask task) := by
  unfold UndisturbedTask
  split <;> infer_instance

instance (e : Event) : Decidable (s.Undisturbed e) := by
  unfold Undisturbed
  split <;> infer_instance

def InUse (h : Helper) : Prop := s.userVerifier = some h.verifier ∧ h.epoch = s.epoch

structure Attended : Prop where
  running : ∀ h ∈ s.helpers, h.fate = .accepted → s.InUse h
  waiting : ∀ h ∈ s.waiting, s.InUse h
  sliding : ∀ h, s.sliding = some h → s.shield.slide = some (.up false) → h.epoch = s.epoch
  verifier : s.userVerifier.isSome → s.shield.dialog.isSome
  opening : s.openings ≠ [] → s.shield.dialog.isSome
  earned : s.Earned

variable {s}

/-! ## What waits -/

theorem mem_waiting_of_cause {h : Helper} (hc : some h ∈ s.causes) : h ∈ s.waiting := by
  obtain ⟨handler, hmem, heq⟩ := List.mem_filterMap.mp hc
  refine List.mem_filterMap.mpr ⟨handler, hmem, ?_⟩
  cases handler with
  | promise cancellable task => cases heq
  | finish animate cause => exact Option.some.inj heq

def Sheds (s s' : State) : Prop :=
  s'.helpers = s.helpers ∧ (s'.handlers = s.handlers ∨ s'.handlers = [])

namespace Sheds

variable {s' s'' : State}

theorem refl (s : State) : Sheds s s := ⟨rfl, .inl rfl⟩

section

variable (h : Sheds s s')
include h

theorem trans (h' : Sheds s' s'') : Sheds s s'' := by
  refine ⟨h'.1.trans h.1, ?_⟩
  rcases h'.2 with heq | hnil
  · rw [heq]
    exact h.2
  · exact .inr hnil

theorem idle (hidle : s.Idle) : s'.Idle := fun e he => hidle e (h.1 ▸ he)

theorem waiting (hw : s.waiting = []) : s'.waiting = [] := by
  rcases h.2 with heq | hnil
  · exact (congrArg (List.filterMap Handler.helper) heq).trans hw
  · exact congrArg (List.filterMap Handler.helper) hnil

theorem quiet (hq : s.Quiet) : s'.Quiet := ⟨h.idle hq.1, h.waiting hq.2⟩

theorem finishSafe (hsafe : s.FinishSafe) : s'.FinishSafe := by
  rcases h.2 with heq | hnil
  · have hcauses : s'.causes = s.causes := congrArg (List.filterMap Handler.cause) heq
    intro hne
    rw [hcauses] at hne ⊢
    exact ⟨h.idle (hsafe hne).1, (hsafe hne).2⟩
  · have hcauses : s'.causes = [] := congrArg (List.filterMap Handler.cause) hnil
    exact fun hne => absurd hcauses hne

end

theorem follow (s : State) (shield : ScreenShield.State) : Sheds s (s.follow shield) := by
  unfold State.follow
  extract_lets t
  split
  · exact ⟨rfl, .inr rfl⟩
  · next opened _ _ => cases opened <;> exact ⟨rfl, .inr rfl⟩
  · exact ⟨rfl, .inl rfl⟩
  · exact ⟨rfl, .inl rfl⟩

theorem continueDeactivate (s : State) (inUse : Option Nat) (animated : Bool)
    (cause : Option Helper) : Sheds s (s.continueDeactivate inUse animated cause) := by
  unfold State.continueDeactivate
  split
  · exact refl s
  · next shield _ => exact follow s shield

theorem finished (s : State) (animate animates : Bool) (cause : Option Helper) :
    Sheds s (s.finished animate animates cause) :=
  continueDeactivate s.dropVerifier _ _ _

theorem runHandler (s : State) (animates : Bool) (handler : Handler) :
    Sheds s (s.runHandler animates handler) := by
  unfold State.runHandler
  split
  · exact refl s
  · split <;> exact refl s
  · split
    · exact finished s _ _ _
    · exact refl s

theorem runHandlers (animates : Bool) (handlers : List Handler) (s : State) :
    Sheds s (handlers.foldl (fun s handler => s.runHandler animates handler) s) := by
  induction handlers generalizing s with
  | nil => exact refl s
  | cons handler handlers ih => exact (runHandler s animates handler).trans (ih _)

theorem finishMessageQueue (s : State) (animates : Bool) :
    Sheds s (s.finishMessageQueue animates) := by
  unfold State.finishMessageQueue
  split
  · have hcleared : Sheds s { s with messageQueue := [], handlers := [] } := ⟨rfl, .inr rfl⟩
    exact hcleared.trans (runHandlers animates s.handlers _)
  · exact refl s

theorem clear (s : State) (animates : Bool) : Sheds s (s.clear animates) :=
  finishMessageQueue s.dropVerifier animates

theorem cancel (s : State) (animates : Bool) : Sheds s (s.cancel animates) := by
  unfold State.cancel
  dsimp only
  split
  · exact clear { s with cancelled := s.cancellable.toList ++ s.cancelled } animates
  · exact refl s

theorem queuePriorityMessage (s : State) (animates : Bool) (message : Message) :
    Sheds s (s.queuePriorityMessage animates message) := by
  unfold State.queuePriorityMessage
  dsimp only
  split
  · exact refl s
  · exact finishMessageQueue s animates

theorem filterServiceMessages (s : State) (animates : Bool) (serviceName : Option Service)
    (type : MessageType) : Sheds s (s.filterServiceMessages animates serviceName type) := by
  unfold State.filterServiceMessages
  split
  · exact queuePriorityMessage s animates _
  · exact refl s

end Sheds

theorem Quiet.finishSafe (h : s.Quiet) : s.FinishSafe := by
  refine fun _ => ⟨h.1, fun cause hmem => ?_⟩
  cases cause with
  | none => rfl
  | some helper =>
      have hw := mem_waiting_of_cause (List.mem_of_mem_tail hmem)
      rw [h.2] at hw
      cases hw

namespace Attended

def view (s : State) :=
  (s.helpers, s.waiting, s.userVerifier, s.openings, s.epoch, s.sliding, s.shield.slide,
    s.shield.dialog, s.log)

theorem congr {s' : State} (h : s.Attended) (hv : view s' = view s) : s'.Attended := by
  simp only [view, Prod.mk.injEq] at hv
  obtain ⟨h1, h2, h3, h4, h5, h6, h7, h8, h9⟩ := hv
  obtain ⟨running, waiting, sliding, verifier, opening, earned⟩ := h
  constructor <;> simp only [InUse, Earned, h1, h2, h3, h4, h5, h6, h7, h8, h9] <;> assumption

/-! ## The verifier is let go -/

theorem dropVerifier (h : s.Attended) (hq : s.Quiet) : s.dropVerifier.Attended where
  __ := h
  running e he hacc := absurd hacc (hq.1 e he)
  waiting e he := by
    have hw : e ∈ s.waiting := he
    rw [hq.2] at hw
    cases hw
  verifier := nofun

theorem begin (h : s.Attended) (hq : s.Quiet) (hd : s.shield.dialog.isSome) : s.begin.Attended :=
  { h.dropVerifier hq with opening := fun _ => hd }

theorem follow_frame (s : State) (shield : ScreenShield.State) :
    (s.follow shield).shield = shield ∧ (s.follow shield).epoch = s.epoch ∧
      (s.follow shield).log = s.log ∧
      (s.follow shield).sliding =
        if s.shield.dialog.isSome ∧ shield.slide = s.shield.slide then s.sliding else none := by
  unfold State.follow
  extract_lets t
  split
  · exact ⟨rfl, rfl, rfl, rfl⟩
  · next opened _ _ => cases opened <;> exact ⟨rfl, rfl, rfl, rfl⟩
  · exact ⟨rfl, rfl, rfl, rfl⟩
  · exact ⟨rfl, rfl, rfl, rfl⟩

theorem follow (h : s.Attended) (shield : ScreenShield.State)
    (hgone : s.shield.dialog.isSome → shield.dialog = none → s.Quiet) :
    (s.follow shield).Attended := by
  unfold State.follow
  extract_lets t
  have hslide : ∀ e, t.sliding = some e → t.shield.slide = some (.up false) → e.epoch = s.epoch := by
    intro e he hup
    obtain ⟨⟨-, hsame⟩, hs⟩ := Option.ite_none_right_eq_some.mp he
    exact h.sliding e hs (hsame ▸ hup)
  split <;> rename_i hs hd
  · exact {
      running := fun e he hacc => absurd hacc ((hgone (by simp [hs]) hd).1 e he)
      waiting := nofun
      sliding := hslide
      verifier := nofun
      opening := fun hne => absurd rfl hne
      earned := h.earned }
  · next opened =>
      have hrunning : ∀ e ∈ s.helpers, e.fate ≠ .accepted := by
        intro e he hacc
        have hsome := h.verifier (by simp [(h.running e he hacc).1])
        rw [hs] at hsome
        cases hsome
      cases opened <;> exact {
        running := fun e he hacc => absurd hacc (hrunning e he)
        waiting := nofun
        sliding := hslide
        verifier := nofun
        opening := fun _ => by simp [newPrompt, State.begin, State.dropVerifier, t, hd]
        earned := h.earned }
  · exact { h with
      sliding := hslide
      verifier := fun hu => by simpa [hs] using h.verifier hu
      opening := fun hne => by simpa [hs] using h.opening hne }
  · exact { h with
      sliding := hslide
      verifier := fun _ => by simp [t, hd]
      opening := fun _ => by simp [t, hd] }

theorem continueDeactivate (h : s.Attended) {inUse : Option Nat} {animated : Bool}
    {cause : Option Helper} (hcause : ∀ e, cause = some e → inUse = some e.verifier ∧ e.epoch = s.epoch)
    (hgone : s.shield.dialog.isSome → s.Quiet) :
    (s.continueDeactivate inUse animated cause).Attended := by
  unfold State.continueDeactivate
  split
  · exact h
  · next shield _ =>
      have hfollow := h.follow shield fun hd _ => hgone hd
      obtain ⟨-, hepoch, -⟩ := follow_frame s shield
      refine { hfollow with
        sliding := fun e he _ => ((hcause e he).2).trans hepoch.symm
        earned := fun e he => ?_ }
      rcases List.mem_append.mp he with hnew | hold
      · obtain ⟨helper, hc, rfl⟩ := Option.map_eq_some_iff.mp (Option.mem_toList.mp hnew)
        exact ⟨(hcause helper hc).1, (hcause helper hc).2.symm⟩
      · exact h.earned e hold

theorem finished (h : s.Attended) (hq : s.Quiet) {cause : Option Helper}
    (hcause : ∀ e, cause = some e → s.InUse e) (animate animates : Bool) :
    (s.finished animate animates cause).Attended :=
  (h.dropVerifier hq).continueDeactivate hcause fun _ => hq

/-! ## The handlers of `no-more-messages` -/

theorem runHandlers (animates : Bool) (handlers : List Handler) (h : s.Attended)
    (hw : s.waiting = []) (hidle : handlers.filterMap Handler.cause ≠ [] → s.Idle)
    (huse : ∀ e, some e ∈ handlers.filterMap Handler.cause → s.InUse e)
    (htail : ∀ cause ∈ (handlers.filterMap Handler.cause).tail, cause = none) :
    (handlers.foldl (fun s handler => s.runHandler animates handler) s).Attended := by
  induction handlers generalizing s with
  | nil => exact h
  | cons handler handlers ih =>
      rw [List.foldl_cons]
      cases handler with
      | promise cancellable task =>
          -- A promise is settled at most.
          have hsettled : view (s.runHandler animates (.promise cancellable task)) = view s := by
            cases cancellable with
            | none => rfl
            | some c =>
                rw [State.runHandler]
                split <;> rfl
          have hsheds := Sheds.runHandler s animates (.promise cancellable task)
          refine ih (h.congr hsettled) (hsheds.waiting hw) (fun hne => hsheds.idle (hidle hne)) ?_ htail
          intro e he
          simp only [view, Prod.mk.injEq] at hsettled
          exact ⟨hsettled.2.2.1.trans (huse e he).1, (huse e he).2.trans hsettled.2.2.2.2.1.symm⟩
      | finish animate cause =>
          -- Whatever goes on later is nobody's.
          have hq : s.Quiet := ⟨hidle (by simp [Handler.cause]), hw⟩
          have hsheds := Sheds.runHandler s animates (.finish animate cause)
          have hnone : ∀ c ∈ handlers.filterMap Handler.cause, c = none := htail
          refine ih ?_ (hsheds.waiting hw) (fun _ => hsheds.idle hq.1) ?_
            fun c hc => hnone c (List.mem_of_mem_tail hc)
          · rw [State.runHandler]
            split
            · refine h.finished hq (fun e he => huse e ?_) animate animates
              rw [he]
              exact List.mem_cons_self
            · exact h
          · exact fun e he => nomatch hnone _ he

section

variable (h : s.Attended)
include h

theorem finishMessageQueue (hsafe : s.FinishSafe) (animates : Bool) :
    (s.finishMessageQueue animates).Attended := by
  unfold State.finishMessageQueue
  split
  · have hcleared : { s with messageQueue := [], handlers := [] }.Attended :=
      { h with waiting := nofun }
    refine hcleared.runHandlers animates s.handlers rfl (fun hne => (hsafe hne).1) ?_ ?_
    · exact fun e he => h.waiting e (mem_waiting_of_cause he)
    · intro cause hmem
      exact (hsafe (List.ne_nil_of_mem (List.mem_of_mem_tail hmem))).2 cause hmem
  · exact h

theorem clear (hq : s.Quiet) (animates : Bool) : (s.clear animates).Attended :=
  (h.dropVerifier hq).finishMessageQueue (Quiet.finishSafe hq) animates

theorem cancel (hq : s.Quiet) (animates : Bool) : (s.cancel animates).Attended := by
  have hcancelled : { s with cancelled := s.cancellable.toList ++ s.cancelled }.Attended := h.congr rfl
  unfold State.cancel
  dsimp only
  split
  · exact hcancelled.clear hq animates
  · exact hcancelled

theorem reset (hq : s.Quiet) (animates : Bool) : (s.reset animates).Attended := by
  have hstatus : { s with
      verificationStatus := .notVerifying, preemptiveAnswer := none }.Attended := h.congr rfl
  unfold State.reset
  extract_lets t
  have ht : t.Attended := hstatus.cancel hq animates
  have hquiet : t.Quiet :=
    (Sheds.cancel { s with
      verificationStatus := .notVerifying, preemptiveAnswer := none } animates).quiet hq
  split
  · next hd =>
      have hasked : { t with queryingService := none }.Attended := ht.congr rfl
      exact hasked.begin hquiet hd
  · exact ht

theorem cancelAndReset (hq : s.Quiet) (animates : Bool) :
    (s.cancelAndReset animates).Attended := by
  have hcancelled := h.cancel hq animates
  unfold State.cancelAndReset
  dsimp only
  split
  · exact hcancelled.reset ((Sheds.cancel s animates).quiet hq) animates
  · exact hcancelled

theorem queuePriorityMessage (hsafe : s.FinishSafe) (animates : Bool)
    (message : Message) : (s.queuePriorityMessage animates message).Attended := by
  unfold State.queuePriorityMessage
  dsimp only
  split
  · exact h.congr rfl
  · exact (h.finishMessageQueue hsafe animates).congr rfl

theorem filterServiceMessages (hsafe : s.FinishSafe) (animates : Bool)
    (serviceName : Option Service) (type : MessageType) :
    (s.filterServiceMessages animates serviceName type).Attended := by
  unfold State.filterServiceMessages
  split
  · exact h.queuePriorityMessage hsafe animates _
  · exact h

theorem handlePendingMessages (task : Task) :
    (s.handlePendingMessages task).Attended := by
  unfold State.handlePendingMessages
  split
  · exact h.congr (by simp [view, State.waiting, Handler.helper])
  · exact h.congr rfl

end

/-! ## Verification -/

section

variable (h : s.Attended)
include h

theorem verificationFailed (hsafe : s.FinishSafe) (animates : Bool)
    (serviceName : Option Service) (shouldRetry : Bool) :
    (s.verificationFailed animates serviceName shouldRetry).Attended := by
  have hfiltered := h.filterServiceMessages hsafe animates serviceName .error
  unfold State.verificationFailed
  extract_lets t u
  have hu : u.Attended := hfiltered.congr rfl
  split
  · exact hu.handlePendingMessages .retry
  · have hdisconnected : { u with connected := false }.Attended := hu.congr rfl
    exact hdisconnected.handlePendingMessages .cancelAndReset

theorem onConversationStopped (hsafe : s.FinishSafe) (animates : Bool) :
    (s.onConversationStopped animates).Attended :=
  (h.filterServiceMessages hsafe animates _ _).verificationFailed
    ((Sheds.filterServiceMessages s animates _ _).finishSafe hsafe) animates _ _

theorem beginService (verifier : Nat) (serviceName : Service) :
    (s.beginService verifier serviceName).Attended := by
  unfold State.beginService
  split
  · exact h.congr rfl
  · exact h

theorem usePamFallback (hq : s.Quiet) (hd : s.shield.dialog.isSome) :
    s.usePamFallback.Attended := by
  have hverifier : { s with
      nextId := s.nextId + 1, userVerifier := some s.nextId, connected := true }.Attended := {
    __ := h
    running := fun e he hacc => absurd hacc (hq.1 e he)
    waiting := fun e he => by
      have hw : e ∈ s.waiting := he
      rw [hq.2] at hw
      cases hw
    verifier := fun _ => hd
    earned := h.earned }
  exact hverifier.beginService _ _

theorem channelFailed {c : Nat} (hd : s.shield.dialog.isSome)
    (hq : c ∉ s.cancelled → s.Quiet) (animates : Bool) (error : ChannelError) :
    (s.channelFailed animates c error).Attended := by
  unfold State.channelFailed
  split
  · exact h
  · next hlive =>
      have hquiet := hq hlive
      cases error with
      | noGdm => exact h.usePamFallback hquiet hd
      | failed =>
          have hqueued : (s.queueMessage
              { serviceName := none, text := some "Authentication error", type := .error }).Attended :=
            h.congr rfl
          exact hqueued.verificationFailed hquiet.finishSafe animates none false

theorem retry : s.retry.Attended := by
  unfold State.retry
  split
  · exact h
  · have hconnected : { s with connected := true }.Attended := h.congr rfl
    exact hconnected.beginService _ _

end

/-! ## Answers -/

section

variable (h : s.Attended)
include h

theorem callAnswerQuery {verifier : Nat} (hv : s.userVerifier = some verifier)
    {fate : Fate} (hsafe : fate = .spawnFails → s.FinishSafe) (animates : Bool) :
    (s.callAnswerQuery animates verifier fate).Attended := by
  have hstarted : { s with
      helpers := s.helpers ++ [Helper.mk verifier s.epoch fate] }.Attended := by
    refine { h with running := fun e he hacc => ?_ }
    rcases List.mem_append.mp he with hold | hnew
    · exact h.running e hold hacc
    · obtain rfl := List.mem_singleton.mp hnew
      exact ⟨hv, rfl⟩
  cases fate with
  | spawnFails =>
      rw [State.callAnswerQuery]
      split
      · exact h.onConversationStopped (hsafe rfl) animates
      · exact h
  | rejected => exact hstarted
  | accepted => exact hstarted

theorem runTask {task : Task} (hsafe : s.UndisturbedTask task) (animates : Bool) :
    (s.runTask animates task).Attended := by
  cases task with
  | answer fate =>
      rw [State.runTask]
      split
      · exact h
      · next verifier hv => exact h.callAnswerQuery hv hsafe animates
  | retry => exact h.retry
  | cancelAndReset => exact h.cancelAndReset hsafe animates

theorem activateNext (fate : Fate) : (s.activateNext fate).Attended := by
  have hstatus : { s with verificationStatus := .verificationInProgress }.Attended := h.congr rfl
  unfold State.activateNext
  dsimp only
  split
  · exact hstatus.handlePendingMessages _
  · exact hstatus.congr rfl

theorem secretInfoQuery (verifier : Nat) :
    (s.secretInfoQuery verifier).Attended := by
  have hasked : { s with queryingService := some .password }.Attended := h.congr rfl
  unfold State.secretInfoQuery State.onAskQuestion
  split
  · dsimp only
    split
    · exact (hasked.handlePendingMessages _).congr rfl
    · exact hasked
  · exact h

end

/-! ## The shield -/

section

variable (h : s.Attended)
include h

theorem deactivate {cause : Option Helper} (hcause : ∀ e, cause = some e → s.InUse e)
    (hq : s.shield.dialog.isSome → s.messageQueue = [] → s.Quiet) (animate animates : Bool) :
    (s.deactivate animate animates cause).Attended := by
  have hreleased : { s with shield.held := false }.Attended := h.congr rfl
  unfold State.deactivate
  dsimp only
  split
  · next hd =>
      unfold State.finish
      split
      · refine { hreleased with waiting := fun e he => ?_ }
        simp only [State.waiting, List.filterMap_append, List.mem_append] at he
        rcases he with hold | hnew
        · exact h.waiting e hold
        · exact hcause e (by simpa [Handler.helper] using hnew)
      · next hnone =>
          have hempty : s.messageQueue = [] := by simpa [hasPendingMessages] using hnone
          exact hreleased.finished (hq hd hempty) hcause _ _
  · next hd => exact hreleased.continueDeactivate hcause fun hsome => absurd hsome hd

theorem helperFinished {e : Helper} (huse : e.fate = .accepted → s.InUse e)
    (hq : e.fate = .accepted → s.shield.dialog.isSome → s.messageQueue = [] → s.Quiet)
    (hsafe : e.fate ≠ .accepted → s.Listens e.verifier → s.FinishSafe) (animates : Bool) :
    (s.helperFinished animates e).Attended := by
  unfold State.helperFinished
  split
  · next hacc =>
      dsimp only
      have hcause : ∀ e', some e = some e' → s.InUse e' := fun e' he => Option.some.inj he ▸ huse hacc
      split
      · have hstatus : { s with verificationStatus := .verificationSucceeded }.Attended :=
          h.congr rfl
        exact hstatus.deactivate hcause (hq hacc) _ _
      · exact h.deactivate hcause (hq hacc) _ _
  · next hacc =>
      split
      · next hlistens =>
          have hinfo : view (s.onInfo "Sorry, that didn’t work. Please try again.") = view s ∧
              Sheds s (s.onInfo "Sorry, that didn’t work. Please try again.") := by
            unfold State.onInfo
            split <;> exact ⟨rfl, .refl s⟩
          exact (h.congr hinfo.1).onConversationStopped
            (hinfo.2.finishSafe (hsafe hacc hlistens)) animates
      · exact h

theorem messageRead (hsafe : s.messageQueue.length ≤ 1 → s.FinishSafe)
    (animates : Bool) : (s.messageRead animates).Attended := by
  unfold State.messageRead
  split
  · exact h.congr rfl
  · next hlast => exact h.finishMessageQueue (hsafe (Nat.not_lt.mp hlast)) animates

theorem lock {animate showLater : Bool} {now : Nat} {w : ScreenShield.Answers}
    (hsafe : s.UndisturbedBy (.lock animate showLater now w)) :
    (s.lock animate showLater now w).Attended := by
  have hfollow : (s.follow (s.shield.lock animate showLater now w)).Attended := by
    refine h.follow _ fun hd hgone => ?_
    have hkept := (ScreenShield.State.lock_of_dialog hd animate showLater now w).1
    rw [hgone] at hkept
    cases hkept
  unfold State.lock
  dsimp only
  split
  · next hnew =>
      -- The lock is a new one.
      obtain ⟨hq, hlater⟩ := hsafe hnew.1 hnew.2
      have hquiet := (Sheds.follow s (s.shield.lock animate showLater now w)).quiet hq
      refine { hfollow with
        running := fun e he hacc => absurd hacc (hquiet.1 e he)
        waiting := fun e he => ?_
        sliding := fun e he hup => ?_ }
      · have hw : e ∈ (s.follow (s.shield.lock animate showLater now w)).waiting := he
        rw [hquiet.2] at hw
        cases hw
      · -- A slide-up that it leaves running was running before, and for no helper.
        obtain ⟨hshield, -, -, hsliding⟩ := follow_frame s (s.shield.lock animate showLater now w)
        obtain ⟨⟨hd, -⟩, hs⟩ := Option.ite_none_right_eq_some.mp (hsliding.symm.trans he)
        obtain ⟨-, hstopped⟩ := ScreenShield.State.lock_of_dialog hd animate showLater now w
        exact absurd (hshield ▸ hup) (hstopped hnew.1 hnew.2 fun hl => hlater hl (by simp [hs]))
  · have hepoch := (follow_frame s (s.shield.lock animate showLater now w)).2.1
    exact hfollow.congr (by simp [view, State.waiting, hepoch])

theorem activateDialog {pending : Bool} {w : ScreenShield.Answers}
    (hsafe : s.UndisturbedBy (.activateDialog pending w)) : (s.activateDialog w).Attended := by
  unfold State.activateDialog
  split
  · refine h.follow _ fun hd hgone => ?_
    rw [ScreenShield.State.ensureUnlockDialog_of_dialog hd] at hgone
    rw [hgone] at hd
    cases hd
  · next hlocked => exact h.deactivate (by simp) (hsafe (by simpa using hlocked)) _ _

theorem slideFinished {shield : ScreenShield.State}
    (hsafe : s.UndisturbedBy .slideFinished) (hslide : s.shield.step .slideFinished = some shield) :
    { s.follow shield with log := s.slidUp ++ s.log }.Attended := by
  obtain ⟨slide, hs, rfl⟩ := Option.map_eq_some_iff.mp hslide
  have hfollow := h.follow ({ s.shield with slide := none }.slideFinished slide)
    fun hd hgone => by
      refine hsafe ?_
      rw [hs]
      by_contra hne
      rw [ScreenShield.State.slideFinished_dialog fun hup => hne (hup ▸ rfl)] at hgone
      rw [hgone] at hd
      cases hd
  refine { hfollow with earned := fun e he => ?_ }
  rcases List.mem_append.mp he with hnew | hold
  · unfold slidUp at hnew
    split at hnew
    · next hup =>
        obtain ⟨helper, hc, rfl⟩ := Option.map_eq_some_iff.mp (Option.mem_toList.mp hnew)
        exact (h.sliding helper hc hup).symm
    · cases hnew
  · exact h.earned e hold

theorem stepShield {e : ScreenShield.Event} {s' : State}
    (hsafe : s.UndisturbedBy e) (hstep : s.stepShield e = some s') : s'.Attended := by
  cases e with
  | lock animate showLater now w =>
      cases hstep
      exact h.lock hsafe
  | deactivate animate pending w =>
      obtain ⟨-, heq⟩ := Option.ite_none_right_eq_some.mp hstep
      cases heq
      exact h.deactivate (by simp) hsafe _ _
  | activateDialog pending w =>
      obtain ⟨-, heq⟩ := Option.ite_none_right_eq_some.mp hstep
      cases heq
      exact h.activateDialog hsafe
  | slideFinished =>
      obtain ⟨shield, hslide, rfl⟩ := Option.map_eq_some_iff.mp hstep
      exact h.slideFinished hsafe hslide
  | noMoreMessages i w => cases hstep
  | activate | showLater | becomeModal | showDialog | slideInterrupted | changeSettings =>
      simp only [State.stepShield, Option.map_eq_some_iff] at hstep
      obtain ⟨shield, hshield, rfl⟩ := hstep
      refine h.follow _ fun hd hgone => ?_
      have hkept := ScreenShield.State.step_dialog hd rfl hshield
      rw [hgone] at hkept
      cases hkept

theorem stepEvent {e : Event} {s' : State} (hsafe : s.Undisturbed e)
    (hstep : s.stepEvent e = some s') : s'.Attended := by
  cases e with
  | answer fate =>
      obtain ⟨-, heq⟩ := Option.ite_none_right_eq_some.mp hstep
      cases heq
      exact h.activateNext fate
  | question i =>
      obtain ⟨verifier, -, rfl⟩ := Option.map_eq_some_iff.mp hstep
      have htaken : { s with idles := s.idles.eraseIdx i }.Attended := h.congr rfl
      exact htaken.secretInfoQuery verifier
  | channel i error animates =>
      obtain ⟨c, hc, rfl⟩ := Option.map_eq_some_iff.mp hstep
      have hd : s.shield.dialog.isSome := h.opening (List.ne_nil_of_mem (List.mem_of_getElem? hc))
      have htaken : { s with openings := s.openings.eraseIdx i }.Attended :=
        { h with opening := fun _ => hd }
      exact htaken.channelFailed hd (fun hlive => hsafe (by simpa [hc] using hlive)) animates error
  | helper i animates =>
      obtain ⟨helper, hi, rfl⟩ := Option.map_eq_some_iff.mp hstep
      have hsafe := hsafe helper hi
      have htaken : { s with helpers := s.helpers.eraseIdx i }.Attended :=
        { h with running := fun e he => h.running e (List.mem_of_mem_eraseIdx he) }
      refine htaken.helperFinished (h.running helper (List.mem_of_getElem? hi)) ?_ ?_ animates
      · intro hacc hd hempty
        rw [if_pos hacc] at hsafe
        exact hsafe hd hempty
      · intro hacc hlistens hne
        rw [if_neg hacc] at hsafe
        obtain ⟨hidle, htail⟩ := hsafe hlistens hne
        exact ⟨fun e he => hidle e (List.mem_of_mem_eraseIdx he), htail⟩
  | messageRead animates =>
      obtain ⟨-, heq⟩ := Option.ite_none_right_eq_some.mp hstep
      cases heq
      exact h.messageRead hsafe animates
  | goOn animates => cases hstep
  | cancel animates =>
      obtain ⟨-, heq⟩ := Option.ite_none_right_eq_some.mp hstep
      cases heq
      unfold State.cancelPrompt
      split
      · exact h
      · next hstatus => exact h.reset (hsafe hstatus) animates
  | preempt animates =>
      obtain ⟨-, heq⟩ := Option.ite_none_right_eq_some.mp hstep
      cases heq
      unfold State.preempt
      split
      · exact h
      · next hstatus => exact h.reset (hsafe hstatus) animates
  | cancelAndReset animates =>
      obtain ⟨-, heq⟩ := Option.ite_none_right_eq_some.mp hstep
      cases heq
      exact h.cancelAndReset hsafe animates
  | foreground service =>
      cases hstep
      exact h.congr rfl
  | shield e => exact h.stepShield hsafe hstep

/-- **An undisturbed step keeps the invariant.** -/
theorem step {e : Event} {s' : State} (hsafe : s.Undisturbed e)
    (hstep : s.step e = some s') : s'.Attended := by
  unfold State.step at hstep
  split at hstep
  · next task rest animates hsettled =>
      cases hstep
      have htaken : { s with settled := rest }.Attended := h.congr rfl
      exact htaken.runTask (hsafe task (by simp [hsettled])) animates
  · cases hstep
  · exact h.stepEvent hsafe hstep

end

end Attended

theorem attended_init (env : ScreenShield.Env) : (State.init env).Attended where
  running := nofun
  waiting := nofun
  sliding := nofun
  verifier := nofun
  opening := fun hne => absurd rfl hne
  earned := nofun

/-- In every undisturbed run, every unlock by a PAM helper is earned. -/
theorem earned_of_reach {env : ScreenShield.Env} {s : State}
    (hreach : Runs.Reach State.step Undisturbed (State.init env) s) : s.Earned :=
  (hreach.invariant (attended_init env) fun _ _ _ h hok hstep => h.step hok hstep).earned

def answered : List Event :=
  [.shield (.lock true false 1 {}), .shield .slideFinished, .channel 0 .noGdm true, .question 0,
    .answer .accepted, .goOn true]

theorem earned_answered : ∃ s, Runs.run State.step (State.init {})
        (answered ++ [.helper 0 true, .shield .slideFinished]) = some s ∧ s.Earned :=
  ⟨_, rfl, @earned_of_reach {} _
    (.of_run (answered ++ [.helper 0 true, .shield .slideFinished]) (by decide) rfl)⟩

/-- Unlocked by something else and locked again while the helper runs, the shield is unlocked by
it. -/
theorem not_earned_lockedAgain : ¬ ∀ s, Runs.Reachable State.step (State.init {}) s → s.Earned := by
  intro h
  have hrun : ∃ s, Runs.run State.step (State.init {})
        (answered ++ [.shield (.deactivate false false {}), .shield (.lock false false 2 {}),
          .helper 0 true]) = some s ∧
      .unlocking ⟨1, 1, .accepted⟩ none 2 ∈ s.log := by
    decide
  obtain ⟨s, hrun, hlog⟩ := hrun
  have hearned := h s (.of_run _ hrun) _ hlog
  cases hearned.1

end State

end Gdm
