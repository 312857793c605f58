import GnomeShellMobile.Runs.Basic
import GnomeShellMobile.PowerManager.Step
import GnomeShellMobile.PowerManager.ScreenSound

/-!
# PowerManager — the screen follows the actions

Without an action the screen is on, and a completed blank, idle blank or suspend leaves it off.
The functions of the power manager call `_turnOffScreen` and `_turnOnScreen` accordingly; whether
the screen obeys is the matter of `Screen.Sound`.

* `ScreenSettled` — the property, of states in which nothing is pending.
* `ScreenSafe` — the side condition on steps.
* `ScreenKept` — the inductive invariant.
-/

namespace PowerManager

def relights : Action → Bool
  | .idleBlank => true
  | .blank => true
  | .suspend => true
  | .suspendForced => true
  | .hibernate => true
  | _ => false

namespace State

variable {t : Thread} {b : Body} {action : Action}

variable (s : State)

/-- No `await` and no timer is pending. -/
structure Quiescent : Prop where
  threads : s.threads = []
  work : s.screen.work = []
  lightbox : s.screen.lightbox = none
  suspendAgain : s.suspendAgainTimeout = none
  notification : s.screenOnForNotificationTimeout = false
  deferred : s.deferredIdleBlankId = false
  ignoreInput : s.ignoreInputTimeouts = 0

def Blanked : Prop :=
  s.isInAction = some .idleBlank ∨ s.isInAction = some .blank ∨
    s.isInAction = some .suspend ∧ ∃ c ∈ s.entry, s.CalledLogind c

/-- The screen is on without an action, with the LED lit and the inhibition given back, and off
in a completed blank, idle blank or suspend. -/
structure ScreenSettled : Prop where
  lit : s.isInAction = none → s.screen.powerSaveMode = 0 ∧ s.screen.ledWritten ≠ some 0 ∧
    s.screen.adaptiveInhibits = 0
  dark : s.Blanked → s.screen.powerSaveMode = 3

/-! ## The side condition -/

def AskedOff : Prop :=
  s.screen.asksOn = false ∨ s.screenOnForNotificationTimeout = true
deriving Decidable

def InBlanking : Prop := s.isInAction ≠ none ∧ s.isInAction ≠ some .dim
deriving Decidable

/-- `_doSystemAction(action)` takes the recorded action away while the screen is off, and then
refuses to enter its own. -/
def RefusedDark (action : Action) : Prop :=
  canUpgrade s.isInAction action = true ∧ s.screen.asksOn = false ∧
    (s.sessionIsActive = false ∨ s.suspended = true)
deriving Decidable

/-- A cancel that starts now tears down an action that turns the screen on, or finds it on. -/
def CancelsLit : Prop :=
  s.suspended = false → s.cancellingActionLock = none →
    ∀ a ∈ s.isInAction, relights a = true ∨ s.screen.asksOn = true
deriving Decidable

def ScreenSafeThread (answer : Bool) : Thread → Prop
  | .queued _ action _ _ => s.newActionQueued = true → ¬s.RefusedDark action
  | .body b .canSleep => answer = true → s.isCancelled b.cancellable = false → s.InBlanking
  | .body b .forcedPainted => s.isCancelled b.cancellable = false → s.InBlanking
  | .powerKeyPress => s.ignoreInputAfterSuspend = false → s.CancelsLit
  | .cancelPocket _ _ ongoing => answer = false → relights ongoing = true ∨ s.screen.asksOn = true
  | .suspendAgainPocket ongoing => answer = false → s.isInAction = some ongoing → s.AskedOff
  | _ => True

instance (answer : Bool) (t : Thread) : Decidable (s.ScreenSafeThread answer t) := by
  unfold ScreenSafeThread
  split <;> infer_instance

def ScreenSafeEvent : Event → Prop
  | .doSystemAction action _ => s.cancellingActionLock = none → ¬s.RefusedDark action
  | .prepareForSleep true _ =>
      s.cancellingActionLock = none →
      ¬(s.suspended = true ∧ (s.isInAction = some .suspend ∨ s.isInAction = some .hibernate)) →
      ¬s.RefusedDark .suspendForced
  | .powerButtonPress => s.ignoreInputAfterSuspend = false → s.CancelsLit
  | .sessionIsActiveChanged active => s.sessionIsActive = true → active = false → s.CancelsLit
  | .notificationTimeout => s.InBlanking
  | .resumeScreen i ok brightness =>
      ∀ w ∈ s.screen.work[i]?, s.screen.ResumeSafe ok brightness w
  | .resume i answer => ∀ t ∈ s.threads[i]?, s.ScreenSafeThread answer t
  | _ => True

instance (e : Event) : Decidable (s.ScreenSafeEvent e) := by
  rcases e with _ | _ | _ | ⟨_ | _, _⟩ <;> unfold ScreenSafeEvent <;> infer_instance

/-- No call of `_turnOffScreen` or `_turnOnScreen` was dropped by its guard against a later call
of the other, and the event meets its condition. -/
def ScreenSafe (e : Event) : Prop :=
  s.screen.asksOn = s.screen.turnsOn ∧ s.ScreenSafeEvent e
deriving Decidable

/-! ## The invariant -/

structure ScreenBase : Prop where
  sound : s.screen.Sound
  heard : s.screen.asksOn = s.screen.turnsOn ∨ s.screen.fadingIn = true ∨
    s.screen.fadingOut = true
  entryless : s.isInAction = none → s.entry = none
  blanked : s.isBlanked = true → s.AskedOff
  slept : ∀ c, s.entry = some c → s.CalledLogind c → s.AskedOff
  faded : ∀ b later, .body b (.sleepFaded later) ∈ s.threads → s.entry = some b.cancellable →
    s.AskedOff
  thread_lt : ∀ t ∈ s.threads, ∀ c, t.running = some c → c < s.nextId
  called_lt : ∀ c, s.CalledLogind c → c < s.nextId
  notIdle : s.userAlreadyIdle = false
  notDeferred : s.deferredIdleBlankId = false

structure ScreenKept : Prop extends ScreenBase s where
  idle : s.isInAction = none ∨ s.isInAction = some .dim → s.screen.asksOn = true

theorem screenKept_init : State.init.ScreenKept := by
  refine ⟨⟨⟨?_, ?_, ?_⟩, ?_, ?_, ?_, ?_, ?_, ?_, ?_, ?_, ?_⟩, ?_⟩
  · constructor <;> simp [State.init]
  all_goals simp [State.init, isBlanked, CalledLogind]

def screenView :=
  (s.isInAction, s.entry, s.threads, s.log, s.nextId, s.screen, s.screenOnForNotificationTimeout,
    s.userAlreadyIdle, s.deferredIdleBlankId)

variable {s s' : State}

theorem ScreenBase.congr (h : s.ScreenBase) (hv : s'.screenView = s.screenView) :
    s'.ScreenBase := by
  simp only [screenView, Prod.mk.injEq] at hv
  obtain ⟨ha, he, ht, hl, hn, hs, ho, hi, hd⟩ := hv
  constructor
  · rw [hs]
    exact h.sound
  · rw [hs]
    exact h.heard
  · rw [ha, he]
    exact h.entryless
  · unfold AskedOff isBlanked
    rw [ha, hs, ho]
    exact h.blanked
  · unfold AskedOff CalledLogind
    rw [he, hs, ho, hl]
    exact h.slept
  · unfold AskedOff
    rw [ht, he, hs, ho]
    exact h.faded
  · rw [ht, hn]
    exact h.thread_lt
  · unfold CalledLogind
    rw [hl, hn]
    exact h.called_lt
  · rw [hi]
    exact h.notIdle
  · rw [hd]
    exact h.notDeferred

theorem ScreenKept.congr (h : s.ScreenKept) (hv : s'.screenView = s.screenView) :
    s'.ScreenKept := by
  refine ⟨h.toScreenBase.congr hv, ?_⟩
  simp only [screenView, Prod.mk.injEq] at hv
  obtain ⟨ha, -, -, -, -, hs, -⟩ := hv
  rw [ha, hs]
  exact h.idle

/-! ### Continuations and effects -/

theorem ScreenBase.push (h : s.ScreenBase) (hlt : ∀ c, t.running = some c → c < s.nextId)
    (hfaded : ∀ b later, t = .body b (.sleepFaded later) → s.AskedOff) : (s.push t).ScreenBase where
  __ := h
  faded b later hm he := by
    rcases List.mem_cons.mp hm with heq | hm
    · exact hfaded b later heq.symm
    · exact h.faded b later hm he
  thread_lt u hu := by
    rcases List.mem_cons.mp hu with rfl | hu
    · exact hlt
    · exact h.thread_lt u hu

theorem ScreenKept.push (h : s.ScreenKept) (hlt : ∀ c, t.running = some c → c < s.nextId)
    (hfaded : ∀ b later, t = .body b (.sleepFaded later) → s.AskedOff) : (s.push t).ScreenKept :=
  ⟨h.toScreenBase.push hlt hfaded, h.idle⟩

theorem ScreenKept.pushOther (h : s.ScreenKept) (ht : t.running = none) : (s.push t).ScreenKept :=
  h.push (by simp [ht]) fun b later he => by simp [he, Thread.running] at ht

theorem ScreenBase.emit (h : s.ScreenBase) {e : Effect} (hs : ∀ c, e ≠ .logindSuspend (some c))
    (hh : ∀ c, e ≠ .logindHibernate c) : (s.emit e).ScreenBase := by
  have hcalled : ∀ c, (s.emit e).CalledLogind c → s.CalledLogind c := by
    rintro c (hc | hc)
    · exact Or.inl ((List.mem_cons.mp hc).resolve_left fun heq => hs c heq.symm)
    · exact Or.inr ((List.mem_cons.mp hc).resolve_left fun heq => hh c heq.symm)
  exact {
    __ := h
    slept := fun c he hc => h.slept c he (hcalled c hc)
    called_lt := fun c hc => h.called_lt c (hcalled c hc)
    notDeferred := h.notDeferred }

section

variable (h : s.ScreenKept)
include h

theorem ScreenKept.emit {e : Effect} (hs : ∀ c, e ≠ .logindSuspend (some c))
    (hh : ∀ c, e ≠ .logindHibernate c) : (s.emit e).ScreenKept :=
  ⟨h.toScreenBase.emit hs hh, h.idle⟩

theorem ScreenKept.throw (e : Error) : (s.throw e).ScreenKept :=
  h.emit (by simp) (by simp)

theorem ScreenKept.installWatch (entry : Option Nat) :
    (s.installWatch entry).ScreenKept := by
  unfold State.installWatch
  split
  · exact h
  · exact (h.emit (e := .userActiveWatch entry) (by simp) (by simp)).congr rfl

theorem ScreenKept.bodyWatch (b : Body) : (s.bodyWatch b).ScreenKept := by
  unfold State.bodyWatch
  split
  · exact h
  · exact h.installWatch _

theorem ScreenKept.bodyShowLater (b : Body) (showLater : Bool) :
    (s.bodyShowLater b showLater).ScreenKept := by
  unfold State.bodyShowLater
  split
  · exact h.emit (by simp) (by simp)
  · exact h

theorem ScreenKept.returnAction (forSleep : Bool) :
    (s.returnAction forSleep).ScreenKept := by
  unfold State.returnAction
  split
  · exact h.pushOther rfl
  · exact h

theorem ScreenKept.settleCancel (reason : CancelReason) (returned : Bool) :
    (s.settleCancel reason returned).ScreenKept := by
  unfold State.settleCancel
  split
  · exact h.pushOther rfl
  · exact h

theorem ScreenKept.setSuspended : s.setSuspended.ScreenKept := h.congr rfl

theorem ScreenKept.nextId : { s with nextId := s.nextId + 1 }.ScreenKept where
  __ := h
  thread_lt t ht c hc := Nat.lt_succ_of_lt (h.thread_lt t ht c hc)
  called_lt c hc := Nat.lt_succ_of_lt (h.called_lt c hc)

theorem ScreenKept.lockCancelling : s.lockCancelling.ScreenKept :=
  h.nextId.congr rfl

theorem ScreenKept.syncInhibitor (shouldInhibit sync ok : Bool) :
    (s.syncInhibitor shouldInhibit sync ok).ScreenKept := by
  unfold State.syncInhibitor
  extract_lets inhibit s₁
  have h₁ : s₁.ScreenKept := h.nextId.congr rfl
  split
  · exact h
  · split
    · split
      · exact h₁.congr rfl
      · exact h₁.pushOther rfl
    · exact h₁.congr rfl

end

/-! ### The screen -/

theorem ScreenBase.turnOnScreen (h : s.ScreenBase)
    (hoff : s.isInAction = none ∨ s.screenOnForNotificationTimeout = true) :
    s.turnOnScreen.ScreenKept := by
  obtain ⟨hsound, hasks, hturns⟩ := h.sound.turnOnScreen
  exact {
    __ := h
    sound := hsound
    heard := hturns.imp (fun ht => hasks.trans ht.symm) Or.inl
    blanked := fun hb => hoff.elim
      (fun hn => by simp [isBlanked, show s.turnOnScreen.isInAction = none from hn] at hb) Or.inr
    slept := fun c he _ => hoff.elim
      (fun hn => by simp [show s.turnOnScreen.entry = none from h.entryless hn] at he) Or.inr
    faded := fun b later _ he => hoff.elim
      (fun hn => by simp [show s.turnOnScreen.entry = none from h.entryless hn] at he) Or.inr
    idle := fun _ => hasks }

theorem ScreenBase.turnOffScreen (h : s.ScreenBase) (hin : s.InBlanking) (owner : Option Nat)
    (timeout : Bool) :
    { s.turnOffScreen owner with screenOnForNotificationTimeout := timeout }.ScreenKept := by
  obtain ⟨hsound, hasks, hturns⟩ := h.sound.turnOffScreen owner
  exact {
    __ := h
    sound := hsound
    heard := hturns.imp (fun ht => hasks.trans ht.symm) Or.inr
    blanked := fun _ => Or.inl hasks
    slept := fun _ _ _ => Or.inl hasks
    faded := fun _ _ _ _ => Or.inl hasks
    idle := fun hidle => (hidle.elim hin.1 hin.2).elim }

theorem ScreenBase.turnOff (h : s.ScreenBase) (hin : s.InBlanking) (owner : Option Nat) :
    (s.turnOffScreen owner).ScreenKept :=
  h.turnOffScreen hin owner _

theorem askedOff_turnOffScreen (owner : Option Nat) : (s.turnOffScreen owner).AskedOff := by
  left
  show (s.screen.turnOffScreen owner).asksOn = false
  unfold Screen.turnOffScreen
  dsimp only
  split
  · rfl
  · simp [Screen.fadeOut, Screen.easeLightbox_eq, Screen.removeAllTransitions_eq]

theorem ScreenKept.setScreen (h : s.ScreenKept) {screen : Screen} (hsound : screen.Sound)
    (hasks : screen.asksOn = s.screen.asksOn) (hheard : screen.asksOn = screen.turnsOn) :
    { s with screen := screen }.ScreenKept := by
  have hoff : s.AskedOff → { s with screen := screen }.AskedOff :=
    fun ho => ho.imp_left fun ho => hasks.trans ho
  exact {
    __ := h
    sound := hsound
    heard := Or.inl hheard
    blanked := fun hb => hoff (h.blanked hb)
    slept := fun c he hc => hoff (h.slept c he hc)
    faded := fun b later hm he => hoff (h.faded b later hm he)
    idle := fun hidle => hasks.trans (h.idle hidle) }

/-! ### Deleting the action -/

theorem ScreenBase.deleteAction (h : s.ScreenBase) : s.deleteAction.ScreenBase where
  __ := h
  entryless _ := rfl
  blanked hb := by simp [isBlanked, State.deleteAction] at hb
  slept := by simp [State.deleteAction]
  faded := by simp [State.deleteAction]

theorem ScreenBase.cancelStart (h : s.ScreenBase) : s.cancelStart.ScreenBase := by
  have hlogged : { s with log := s.entry.toList.map Effect.revoked ++ s.log }.ScreenBase := by
    cases he : s.entry with
    | none => exact h.congr (by simp [screenView, he])
    | some c =>
        exact (h.emit (e := .revoked c) (by simp) (by simp)).congr
          (by simp [screenView, he, State.emit])
  exact hlogged.deleteAction.congr rfl

theorem ScreenBase.tearDown (h : s.ScreenBase) (heq : s.screen.asksOn = s.screen.turnsOn)
    {ongoing : Action} (hlit : relights ongoing = true ∨ s.screen.asksOn = true) :
    (s.tearDown ongoing).ScreenKept := by
  have hdel := h.cancelStart
  have hidle : s.cancelStart.userAlreadyIdle = false := h.notIdle
  unfold State.tearDown
  extract_lets s₁ s₂ s₃ s₄
  have hthrow : s₁.tearDownThrows = false := by simp [s₁, tearDownThrows, hidle]
  have h₂ : s₂.ScreenBase ∧ s₂.isInAction = none ∧ s₂.screen = s.screen := by
    unfold s₂
    rw [if_neg (by simp [s₁, hidle])]
    exact ⟨hdel.congr rfl, rfl, rfl⟩
  obtain ⟨h₂, hnone, hscreen⟩ := h₂
  rw [if_neg (by simp [hthrow])]
  -- An action whose teardown leaves the screen alone finds it on.
  have hkeep : relights ongoing = false → s₂.ScreenKept := fun hdark =>
    ⟨h₂, fun _ => by rw [hscreen]; exact hlit.resolve_left (by simp [hdark])⟩
  -- The notification timer does not matter without an action.
  have hdrop : { s₂ with screenOnForNotificationTimeout := false }.ScreenBase := {
    __ := h₂
    blanked := fun hb => by
      rw [isBlanked, show ({ s₂ with screenOnForNotificationTimeout := false } : State).isInAction
        = none from hnone] at hb
      cases hb
    slept := fun c he => by simp [h₂.entryless hnone] at he
    faded := fun b later _ he => by simp [h₂.entryless hnone] at he
    notDeferred := h₂.notDeferred }
  cases ongoing with
  | dim =>
      have hk := hkeep rfl
      have hasks : s₂.screen.asksOn = true := hk.idle (Or.inl hnone)
      have hturns : s₂.screen.turnsOn = true := by
        rw [← hasks, hscreen]
        exact heq.symm
      obtain ⟨hsame, hsame'⟩ := Screen.undim_asks (s := s₂.screen)
      exact hk.setScreen (h₂.sound.undim hturns) hsame (by rw [hsame, hsame', hasks, hturns])
  | idleBlank =>
      have h₄ : s₄.ScreenBase ∧ s₄.isInAction = none := by
        unfold s₄
        split
        · exact ⟨hdrop.emit (by simp) (by simp), hnone⟩
        · exact ⟨hdrop, hnone⟩
      exact h₄.1.turnOnScreen (Or.inl h₄.2)
  | blank => exact hdrop.turnOnScreen (Or.inl hnone)
  | suspend | suspendForced =>
      exact ScreenBase.turnOnScreen (h₂.congr rfl) (Or.inl hnone)
  | hibernate => exact h₂.turnOnScreen (Or.inl hnone)
  | shutdown | logout | nothing => exact hkeep rfl

theorem ScreenKept.maybeCancelAction (h : s.ScreenKept)
    (heq : s.screen.asksOn = s.screen.turnsOn) {reason : CancelReason}
    (hsafe : reason = .powerButtonPress ∨ reason = .sessionInactive → s.CancelsLit) :
    (s.maybeCancelAction reason).ScreenKept := by
  unfold State.maybeCancelAction
  split
  · exact h.throw _
  · rename_i ongoing ha
    split
    · exact h.settleCancel _ _
    · rename_i hs
      split
      · split
        · exact ScreenKept.settleCancel (s := { s with newActionQueued := false })
            (h.congr rfl) _ _
        · exact h.settleCancel _ _
      · rename_i hlock
        have htorn : relights ongoing = true ∨ s.screen.asksOn = true →
            ((s.tearDown ongoing).lockCancelling.push
              (.cancelFinally s.nextId reason (!s.tearDownThrows))).ScreenKept :=
          fun hlit => (h.toScreenBase.tearDown heq hlit).lockCancelling.pushOther rfl
        have hlit : reason = .powerButtonPress ∨ reason = .sessionInactive →
            relights ongoing = true ∨ s.screen.asksOn = true := fun hr =>
          hsafe hr (by simpa using hs) (by simpa using hlock) ongoing ha
        cases reason with
        | powerButtonPress => exact htorn (hlit (Or.inl rfl))
        | sessionInactive => exact htorn (hlit (Or.inr rfl))
        | suspendWakeup =>
            dsimp only
            split
            · exact (h.throw _).lockCancelling.pushOther rfl
            · split
              · exact (h.throw _).lockCancelling.pushOther rfl
              · exact h.lockCancelling.pushOther rfl
        | userActive =>
            dsimp only
            split
            · rename_i hdim
              exact htorn (Or.inr (h.idle (Or.inr (hdim ▸ ha))))
            · exact h.lockCancelling.pushOther rfl

theorem ScreenKept.resumeCancel (h : s.ScreenKept) (heq : s.screen.asksOn = s.screen.turnsOn)
    {ongoing : Action} {near : Bool}
    (hlit : near = false → relights ongoing = true ∨ s.screen.asksOn = true)
    (reason : CancelReason) : (s.resumeCancel reason ongoing near).ScreenKept := by
  unfold State.resumeCancel
  split
  · dsimp only
    refine ScreenKept.settleCancel ?_ _ _
    split
    · exact (h.installWatch none).congr rfl
    · exact h.congr rfl
  · rename_i hnear
    have htorn : { s.tearDown ongoing with cancellingActionLock := none }.ScreenKept :=
      (h.toScreenBase.tearDown heq (hlit (by simpa using hnear))).congr rfl
    dsimp only
    split
    · exact htorn.settleCancel _ _
    · exact htorn

/-! ### Entering an action -/

theorem ScreenKept.finishBody (h : s.ScreenKept) (b : Body) : (s.finishBody b).ScreenKept :=
  h.pushOther rfl

theorem ScreenKept.pushBody (h : s.ScreenKept) (hb : b.cancellable < s.nextId)
    {pc : BodyPc} (hpc : ∀ later, pc = .sleepFaded later → s.AskedOff) :
    (s.push (.body b pc)).ScreenKept :=
  h.push (fun c hc => Option.some.inj hc ▸ hb) fun b' later he => by
    cases he
    exact hpc later rfl

theorem ScreenBase.lockAndTurnOff (h : s.ScreenBase) (hin : s.InBlanking)
    (hb : b.cancellable < s.nextId) (pc : Bool → BodyPc) : (s.lockAndTurnOff b pc).ScreenKept := by
  unfold State.lockAndTurnOff
  dsimp only
  split
  · have hlocked := h.emit (e := .lock b.cancellable) (by simp) (by simp)
    exact ScreenKept.pushBody (hlocked.turnOff hin _) hb fun _ _ => askedOff_turnOffScreen _
  · exact (h.turnOff hin _).pushBody hb fun _ _ => askedOff_turnOffScreen _

theorem ScreenBase.startAction (h : s.ScreenBase) (heq : s.screen.asksOn = s.screen.turnsOn)
    (hdim : action = .dim → s.screen.asksOn = true) (watchEarly forSleep : Bool) :
    (s.startAction action watchEarly forSleep).ScreenKept := by
  unfold State.startAction
  extract_lets s₁ c
  have h₁ : s₁.ScreenBase ∧ s₁.screen = s.screen := by
    unfold s₁ State.installWatch
    split
    · split
      · exact ⟨h, rfl⟩
      · exact ⟨(h.emit (e := .userActiveWatch none) (by simp) (by simp)).congr rfl, rfl⟩
    · exact ⟨h, rfl⟩
  obtain ⟨h₁, hscreen⟩ := h₁
  have hc : ¬s₁.CalledLogind c := fun hcall => Nat.lt_irrefl _ (h₁.called_lt c hcall)
  have hfresh : ∀ b later, .body b (.sleepFaded later) ∈ s₁.threads → b.cancellable ≠ c :=
    fun b later hm he => absurd (h₁.thread_lt _ hm b.cancellable rfl) (by
      rw [he]
      exact Nat.lt_irrefl _)
  -- A blank or idle blank asks at once for the screen to be off.
  have hbase : ∀ screen : Screen, screen.Sound →
      (screen.asksOn = screen.turnsOn ∨ screen.fadingIn = true ∨ screen.fadingOut = true) →
      (action = .idleBlank ∨ action = .blank → screen.asksOn = false) →
      { s₁ with
        nextId := c + 1
        actionStartCancellable := some c
        isInAction := some action
        entry := some c
        woken := false
        screen := screen }.ScreenBase := fun screen hsound hheard hblank => {
    sound := hsound
    heard := hheard
    entryless := by simp
    blanked := fun hb => Or.inl (hblank (by simpa [isBlanked] using hb))
    slept := fun d hd hcall => by
      cases hd
      exact absurd hcall hc
    faded := fun b later hm he => absurd (Option.some.inj he).symm (hfresh b later hm)
    thread_lt := fun t ht d hd => Nat.lt_succ_of_lt (h₁.thread_lt t ht d hd)
    called_lt := fun d hd => Nat.lt_succ_of_lt (h₁.called_lt d hd)
    notIdle := h₁.notIdle
    notDeferred := h₁.notDeferred }
  have hlt : c < c + 1 := Nat.lt_succ_self c
  -- The other actions leave the screen alone at first.
  have hkept : action ≠ .idleBlank → action ≠ .blank → action ≠ .dim → { s₁ with
      nextId := c + 1
      actionStartCancellable := some c
      isInAction := some action
      entry := some c
      woken := false }.ScreenKept := fun hi hb hd =>
    ⟨hbase s₁.screen h₁.sound h₁.heard (by simp [hi, hb]), fun hidle => by simp [hd] at hidle⟩
  obtain ⟨hsound, hasks, hturns⟩ := h₁.sound.turnOffScreen (some c)
  have hoff := hbase (s₁.screen.turnOffScreen (some c)) hsound
    (hturns.imp (fun ht => hasks.trans ht.symm) Or.inr) fun _ => hasks
  have hdark : action ≠ .dim → { s₁ with
      nextId := c + 1
      actionStartCancellable := some c
      isInAction := some action
      entry := some c
      woken := false
      screen := s₁.screen.turnOffScreen (some c) }.ScreenKept := fun hd =>
    ⟨hoff, fun hidle => by simp [hd] at hidle⟩
  cases action with
  | dim =>
      obtain ⟨hsame, hsame'⟩ := Screen.dim_asks (s := s₁.screen)
      have hon : s₁.screen.asksOn = true := by
        rw [hscreen]
        exact hdim rfl
      have hturns : s₁.screen.turnsOn = true := by
        rw [hscreen] at hon ⊢
        rw [← heq, hon]
      have hdimmed := hbase s₁.screen.dim (h₁.sound.dim hturns)
        (Or.inl (by rw [hsame, hsame', hon, hturns])) (by simp)
      exact ScreenKept.finishBody ⟨hdimmed, fun _ => hsame.trans hon⟩ _
  | idleBlank => exact ScreenKept.pushBody (hdark (by simp)) hlt (by simp)
  | blank =>
      simp only [enterBody, State.lockAndTurnOff]
      split
      · exact ScreenKept.pushBody
          (((hdark (by simp)).emit (e := .lock c) (by simp) (by simp)).congr rfl) hlt (by simp)
      · exact ScreenKept.pushBody (hdark (by simp)) hlt (by simp)
  | suspend => exact ScreenKept.pushBody (hkept (by simp) (by simp) (by simp)) hlt (by simp)
  | hibernate => exact ScreenKept.pushBody (hkept (by simp) (by simp) (by simp)) hlt (by simp)
  | suspendForced =>
      simp only [enterBody]
      split
      · have hset := (hkept (by simp) (by simp) (by simp)).setSuspended
        exact ScreenKept.pushBody (hset.emit (e := .lock c) (by simp) (by simp)) hlt (by simp)
      · exact ScreenKept.pushBody (hdark (by simp)).setSuspended hlt (by simp)
  | shutdown => exact ScreenKept.finishBody (hkept (by simp) (by simp) (by simp)) _
  | logout => exact ScreenKept.finishBody (hkept (by simp) (by simp) (by simp)) _
  | nothing => exact ScreenKept.finishBody (hkept (by simp) (by simp) (by simp)) _

section

variable (h : s.ScreenKept)
include h

theorem ScreenKept.enterAction (heq : s.screen.asksOn = s.screen.turnsOn)
    (action : Action) (watchEarly forSleep : Bool) :
    (s.enterAction action watchEarly forSleep).ScreenKept := by
  unfold State.enterAction
  split
  · exact h.returnAction _
  · rename_i hin
    have hnone : s.isInAction = none := by simpa using hin
    split
    · exact h.returnAction _
    · split
      · exact h.throw _
      · split
        · exact h.throw _
        · split
          · exact h.returnAction _
          · exact h.toScreenBase.startAction heq (fun _ => h.idle (Or.inl hnone)) _ _

theorem ScreenKept.upgrade_enterAction
    (heq : s.screen.asksOn = s.screen.turnsOn) (hsafe : ¬s.RefusedDark action)
    (watchEarly forSleep : Bool) :
    ((s.upgrade action).enterAction action watchEarly forSleep).ScreenKept := by
  unfold State.upgrade
  split
  · rename_i hu
    have hdel := h.toScreenBase.cancelStart
    cases hon : s.screen.asksOn with
    | true =>
        exact ScreenKept.enterAction ⟨hdel, fun _ => hon⟩ heq _ _ _
    | false =>
        have hne : action ≠ .nothing ∧ action ≠ .dim := by
          constructor <;> rintro rfl <;> cases ha : s.isInAction with
          | none => simp [ha, canUpgrade] at hu
          | some a => cases a <;> simp [ha, canUpgrade] at hu
        have henter : s.cancelStart.enterAction action watchEarly forSleep
            = s.cancelStart.startAction action watchEarly forSleep := by
          have hactive : s.sessionIsActive = true ∧ s.suspended = false := by
            constructor
            · cases hs : s.sessionIsActive with
              | true => rfl
              | false => exact absurd ⟨hu, hon, Or.inl hs⟩ hsafe
            · cases hs : s.suspended with
              | true => exact absurd ⟨hu, hon, Or.inr hs⟩ hsafe
              | false => rfl
          simp [State.enterAction, State.cancelStart, State.deleteAction, hactive, hne.1]
        rw [henter]
        exact hdel.startAction heq (fun hd => absurd hd hne.2) _ _
  · exact h.enterAction heq _ _ _

theorem ScreenKept.doSystemAction (heq : s.screen.asksOn = s.screen.turnsOn)
    (hsafe : s.cancellingActionLock = none → ¬s.RefusedDark action)
    (watchEarly forSleep : Bool) : (s.doSystemAction action watchEarly forSleep).ScreenKept := by
  unfold State.doSystemAction
  split
  · exact ScreenKept.pushOther (s := { s with newActionQueued := true }) (h.congr rfl) rfl
  · rename_i hlock
    exact h.upgrade_enterAction heq (hsafe hlock) _ _

theorem ScreenKept.resumeQueued (heq : s.screen.asksOn = s.screen.turnsOn)
    (hsafe : s.newActionQueued = true → ¬s.RefusedDark action)
    (watchEarly forSleep : Bool) : (s.resumeQueued action watchEarly forSleep).ScreenKept := by
  unfold State.resumeQueued
  split
  · exact h.returnAction _
  · rename_i hqueued
    exact ScreenKept.upgrade_enterAction (s := { s with newActionQueued := false }) (h.congr rfl)
      heq (hsafe (by simpa using hqueued)) _ _

theorem ScreenKept.callLogind (hb : b.cancellable < s.nextId)
    (hoff : s.entry = some b.cancellable → s.AskedOff) : (s.callLogind b).ScreenKept := by
  have hlog : ∀ e, e = .logindSuspend (some b.cancellable) ∨ e = .logindHibernate b.cancellable →
      (s.setSuspended.emit e).ScreenKept := by
    intro e he
    have hcalled : ∀ c, (s.setSuspended.emit e).CalledLogind c →
        c = b.cancellable ∨ s.CalledLogind c := by
      rintro c (hc | hc) <;> rcases List.mem_cons.mp hc with rfl | hc
      · left
        simpa using he
      · exact Or.inr (Or.inl hc)
      · left
        simpa using he
      · exact Or.inr (Or.inr hc)
    exact {
      __ := h
      slept := fun c hc hcall => by
        rcases hcalled c hcall with rfl | hcall
        · exact hoff hc
        · exact h.slept c hc hcall
      called_lt := fun c hcall => by
        rcases hcalled c hcall with rfl | hcall
        · exact hb
        · exact h.called_lt c hcall
      idle := h.idle }
  unfold State.callLogind
  dsimp only
  split
  · exact hlog _ (Or.inr rfl)
  · exact hlog _ (Or.inl rfl)

theorem ScreenKept.resumeBody (hb : b.cancellable < s.nextId)
    {pc : BodyPc} {answer : Bool}
    (hoff : ∀ later, pc = .sleepFaded later → s.entry = some b.cancellable → s.AskedOff)
    (hsafe : s.ScreenSafeThread answer (.body b pc)) : (s.resumeBody b pc answer).ScreenKept := by
  have hwatch : (s.bodyWatch b).nextId = s.nextId := by
    unfold State.bodyWatch State.installWatch
    split
    · rfl
    · split <;> rfl
  cases pc with
  | idleBlankFaded =>
      simp only [State.resumeBody]
      split
      · exact h.finishBody _
      · exact h.pushBody hb (by simp)
  | idleBlankSlept =>
      have hshown := (h.bodyWatch b).emit (e := .activateShield b.cancellable) (by simp) (by simp)
      simp only [State.resumeBody]
      split
      · exact h.finishBody _
      · split
        · exact hshown.pushBody (by rw [← hwatch] at hb; exact hb) (by simp)
        · exact hshown.finishBody _
  | idleBlankLockDelay =>
      simp only [State.resumeBody]
      split
      · exact h.finishBody _
      · exact ScreenKept.finishBody (h.emit (by simp) (by simp)) _
  | blankFaded later =>
      have hshown := h.bodyShowLater b later
      simp only [State.resumeBody]
      split
      · exact hshown.finishBody _
      · refine hshown.pushBody ?_ (by simp)
        unfold State.bodyShowLater
        split <;> exact hb
  | blankSlept | forcedFaded =>
      simp only [State.resumeBody]
      split
      · exact h.finishBody _
      · exact (h.bodyWatch b).finishBody _
  | canSleep =>
      simp only [State.resumeBody]
      split
      · exact h.finishBody _
      · rename_i hanswer
        split
        · exact h.finishBody _
        · rename_i hlive
          exact h.toScreenBase.lockAndTurnOff (hsafe (by simpa using hanswer) (by simpa using hlive))
            hb _
  | sleepFaded later =>
      have hshown := h.bodyShowLater b later
      simp only [State.resumeBody]
      split
      · exact hshown.finishBody _
      · set s₁ := (s.bodyShowLater b later).bodyWatch b with hs₁
        have hsame : s₁.nextId = s.nextId ∧ s₁.entry = s.entry ∧ s₁.screen = s.screen ∧
            s₁.screenOnForNotificationTimeout = s.screenOnForNotificationTimeout := by
          rw [hs₁]
          unfold State.bodyWatch State.installWatch State.bodyShowLater
          split <;> split <;> (try split) <;> simp [State.emit]
        obtain ⟨hn, he, hscreen, ht⟩ := hsame
        have hcall : (s₁.callLogind b).ScreenKept :=
          (hshown.bodyWatch b).callLogind (by rw [hn]; exact hb) fun hentry => by
            unfold AskedOff
            rw [hscreen, ht]
            exact hoff later rfl (he ▸ hentry)
        refine hcall.pushBody ?_ (by simp)
        unfold State.callLogind
        dsimp only
        split <;> exact hn ▸ hb
  | sleepCalled =>
      simp only [State.resumeBody]
      split
      · exact h.finishBody _
      · have hdel : s.deleteAction.turnOnScreen.ScreenKept :=
          h.toScreenBase.deleteAction.turnOnScreen (Or.inl rfl)
        have hfailed : { s.turnOnScreen.deleteAction with suspended := false }.ScreenKept :=
          hdel.congr rfl
        exact hfailed.finishBody _
  | forcedPainted =>
      simp only [State.resumeBody]
      split
      · exact h.finishBody _
      · rename_i hlive
        exact (h.toScreenBase.turnOff (hsafe (by simpa using hlive)) _).pushBody hb (by simp)

end

/-! ### The other functions -/

section

variable (h : s.ScreenKept)
include h

theorem ScreenKept.afterSleepAction : s.afterSleepAction.ScreenKept := by
  unfold State.afterSleepAction
  split
  · exact h
  · split
    · exact h
    · split
      · exact h.throw _
      · exact h.syncInhibitor _ _ _

theorem ScreenKept.prepareForSleep
    (heq : s.screen.asksOn = s.screen.turnsOn) {aboutToSuspend ok : Bool}
    (hsafe : s.ScreenSafeEvent (.prepareForSleep aboutToSuspend ok)) :
    (s.prepareForSleep aboutToSuspend ok).ScreenKept := by
  unfold State.prepareForSleep
  extract_lets s₁ s₂ s₃ s₄
  have h₁ : s₁.ScreenKept := h.congr rfl
  have h₂ : s₂.ScreenKept := h.congr rfl
  have h₄ : s₄.ScreenKept := (h₂.syncInhibitor true true ok).congr rfl
  have heq₄ : s₄.screen.asksOn = s₄.screen.turnsOn := by
    rw [show s₄.screen = s₂.screen from (s₂.syncInhibitor_frame _ _ _).2.2.2]
    exact heq
  split
  · rename_i htrue
    subst htrue
    have hdark : ¬(s.suspended = true ∧
        (s.isInAction = some .suspend ∨ s.isInAction = some .hibernate)) →
        s₁.cancellingActionLock = none → ¬s₁.RefusedDark .suspendForced :=
      fun hcall hlock => hsafe hlock hcall
    split
    · rename_i hcall
      refine h₁.doSystemAction heq (fun hlock => hdark ?_ hlock) _ _
      rcases hcall with hother | hlocked
      · rintro ⟨-, hs | hs⟩
        · exact hother.1 hs
        · exact hother.2 hs
      · rw [hlock] at hlocked
        cases hlocked
    · split
      · rename_i hsuspended
        refine h₁.doSystemAction heq (hdark ?_) _ _
        rintro ⟨hs, -⟩
        simp_all [s₁]
      · exact h₁.afterSleepAction
  · split
    · exact h₄.maybeCancelAction heq₄ (by simp)
    · rename_i hnone
      exact h₄.toScreenBase.turnOnScreen (Or.inl (by simpa using hnone))

theorem ScreenKept.onUserActive (heq : s.screen.asksOn = s.screen.turnsOn)
    (powerKey : Bool) : (s.onUserActive powerKey).ScreenKept := by
  unfold State.onUserActive
  extract_lets s₁ s₂
  have h₁ : s₁.ScreenKept := h.congr rfl
  have h₂ : s₂.ScreenKept := ⟨{ h.toScreenBase with notIdle := rfl }, h.idle⟩
  rw [if_neg (by rw [show s₁.deferredIdleBlankId = false from h.notDeferred]; simp)]
  split
  · exact h₁.throw _
  · split
    · exact h₂.pushOther rfl
    · exact h₂.maybeCancelAction heq (by simp)

theorem ScreenKept.resumeUserActive (cancelled : Bool) :
    (s.resumeUserActive cancelled).ScreenKept := by
  unfold State.resumeUserActive
  split
  · exact h
  · split
    · exact h
    · exact h.installWatch _

theorem ScreenKept.powerButtonPress (heq : s.screen.asksOn = s.screen.turnsOn)
    (hsafe : s.ignoreInputAfterSuspend = false → s.CancelsLit) : s.powerButtonPress.ScreenKept := by
  unfold State.powerButtonPress
  split
  · exact h
  · rename_i hheard
    split
    · exact h.maybeCancelAction heq fun _ => hsafe (by simpa using hheard)
    · exact h

theorem ScreenKept.sessionIsActiveChanged
    (heq : s.screen.asksOn = s.screen.turnsOn) {active : Bool}
    (hsafe : s.ScreenSafeEvent (.sessionIsActiveChanged active)) :
    (s.sessionIsActiveChanged active).ScreenKept := by
  have h₁ : { s with sessionIsActive := active }.ScreenKept := h.congr rfl
  unfold State.sessionIsActiveChanged
  split
  · exact h
  · rename_i hchanged
    dsimp only
    split
    · rename_i hleft
      have hoff : active = false := by simp_all
      have hwas : s.sessionIsActive = true := by simp_all
      exact h₁.maybeCancelAction heq fun _ => hsafe hwas hoff
    · exact h₁

theorem ScreenKept.resumeWakeUp (near : Bool) :
    (s.resumeWakeUp near).ScreenKept := by
  unfold State.resumeWakeUp
  split
  · exact h
  · split
    · exact h
    · have hshown : { s with screenOnForNotificationTimeout := true }.ScreenBase := {
        __ := h
        blanked := fun _ => Or.inr rfl
        slept := fun _ _ _ => Or.inr rfl
        faded := fun _ _ _ _ => Or.inr rfl
        notDeferred := h.notDeferred }
      exact hshown.turnOnScreen (Or.inr rfl)

theorem ScreenKept.resumeSuspendAgain {ongoing : Action} {near : Bool}
    (hsafe : near = false → s.isInAction = some ongoing → s.AskedOff) :
    (s.resumeSuspendAgain ongoing near).ScreenKept := by
  unfold State.resumeSuspendAgain
  split
  · exact h.throw _
  · rename_i ha
    have hsome : s.isInAction = some ongoing := by simpa using ha
    split
    · rename_i hnear
      exact {
        __ := h
        entryless := by simp
        blanked := fun _ => hsafe (by simpa using hnear) hsome
        idle := by simp }
    · exact (h.setSuspended.emit (by simp) (by simp)).pushOther rfl

end

/-! ### The step -/

theorem ScreenKept.rest (h : s.ScreenKept) {rest : List Thread} {i : Nat}
    (htake : Runs.take s.threads i = some (t, rest)) : { s with threads := rest }.ScreenKept where
  __ := h
  faded b later hm := h.faded b later (Runs.mem_of_take htake hm)
  thread_lt u hu := h.thread_lt u (Runs.mem_of_take htake hu)

theorem ScreenKept.resumeThread (h : s.ScreenKept) (heq : s.screen.asksOn = s.screen.turnsOn)
    {rest : List Thread} {i : Nat} {answer : Bool}
    (htake : Runs.take s.threads i = some (t, rest)) (hsafe : s.ScreenSafeThread answer t) :
    ({ s with threads := rest }.resumeThread t answer).ScreenKept := by
  have hrest := h.rest htake
  have hmem := Runs.take_mem htake
  cases t with
  | queued lock action watchEarly forSleep => exact hrest.resumeQueued heq hsafe _ _
  | body b pc =>
      refine hrest.resumeBody (h.thread_lt _ hmem _ rfl) (fun later hpc he => ?_) ?_
      · exact h.faded b later (hpc ▸ hmem) he
      · cases pc <;> exact hsafe
  | bodyFinally b =>
      exact ScreenKept.returnAction
        (s := { s with threads := rest, actionStartCancellable := none }) (hrest.congr rfl) _
  | cancelPocket lock reason ongoing => exact hrest.resumeCancel heq hsafe _
  | cancelFinally lock reason returned =>
      have hfree : { s with threads := rest, cancellingActionLock := none }.ScreenKept :=
        hrest.congr rfl
      simp only [State.resumeThread]
      split
      · exact hfree.settleCancel _ _
      · exact hfree
  | userActive cancelled => exact hrest.resumeUserActive _
  | powerKeyPress => exact hrest.powerButtonPress heq hsafe
  | sleepAction => exact hrest.afterSleepAction
  | suspendAgainPocket ongoing => exact hrest.resumeSuspendAgain hsafe
  | suspendAgainCall =>
      simp only [State.resumeThread]
      split
      · exact hrest
      · have hdel : { s with threads := rest }.deleteAction.ScreenBase :=
          hrest.toScreenBase.deleteAction
        exact ScreenBase.turnOnScreen
          (s := { { s with threads := rest }.deleteAction with suspended := false })
          (hdel.congr rfl) (Or.inl rfl)
  | wakeUpPocket => exact hrest.resumeWakeUp _
  | inhibit c =>
      simp only [State.resumeThread]
      split
      · exact hrest.congr rfl
      · exact hrest

/-- **The step lemma.** -/
theorem ScreenKept.step (h : s.ScreenKept) {e : Event} (hsafe : s.ScreenSafe e)
    (hstep : step s e = some s') : s'.ScreenKept := by
  obtain ⟨heq, hsafe⟩ := hsafe
  cases e with
  | doSystemAction action watchEarly =>
      cases hstep
      exact h.doSystemAction heq hsafe _ _
  | powerButtonPress =>
      cases hstep
      exact h.powerButtonPress heq hsafe
  | sessionIsActiveChanged active =>
      cases hstep
      exact h.sessionIsActiveChanged heq hsafe
  | prepareForSleep aboutToSuspend ok =>
      cases hstep
      exact h.prepareForSleep heq hsafe
  | userActive powerKey =>
      obtain ⟨-, rfl⟩ := Option.ite_some_none_eq_some.mp hstep
      exact h.onUserActive heq _
  | ignoreInputTimeout =>
      obtain ⟨-, hsome⟩ := Option.ite_none_left_eq_some.mp hstep
      cases hsome
      exact h.congr rfl
  | suspendAgainTimeout =>
      obtain ⟨ongoing, -, rfl⟩ := Option.map_eq_some_iff.mp hstep
      exact ScreenKept.pushOther (s := { s with suspendAgainTimeout := none }) (h.congr rfl) rfl
  | wakeUpScreen =>
      cases hstep
      split
      · exact h.pushOther rfl
      · exact h
  | notificationTimeout =>
      obtain ⟨-, rfl⟩ := Option.ite_some_none_eq_some.mp hstep
      exact h.toScreenBase.turnOffScreen hsafe _ _
  | deferredIdleBlankTimeout =>
      obtain ⟨hd, -⟩ := Option.ite_some_none_eq_some.mp hstep
      rw [h.notDeferred] at hd
      cases hd
  | loginSessionChanged active =>
      cases hstep
      exact ScreenKept.syncInhibitor (s := { s with loginSessionActive := active })
        (h.congr rfl) _ _ _
  | envChanged env =>
      cases hstep
      exact h.congr rfl
  | lightboxStopped =>
      obtain ⟨screen, hstop, rfl⟩ := Option.map_eq_some_iff.mp hstep
      obtain ⟨hsound, hasks, hturns, -⟩ := h.sound.lightboxStopped hstop
      exact h.setScreen hsound hasks (by rw [hasks, hturns, heq])
  | resumeScreen i ok brightness =>
      obtain ⟨screen, hresume, rfl⟩ := Option.map_eq_some_iff.mp hstep
      obtain ⟨hsound, hasks, hturns⟩ := h.sound.resumeWork hsafe hresume
      exact h.setScreen hsound hasks (by rw [hasks, hturns, heq])
  | resume i answer =>
      obtain ⟨⟨t, rest⟩, htake, hready⟩ := Option.bind_eq_some_iff.mp hstep
      obtain ⟨-, rfl⟩ := Option.ite_some_none_eq_some.mp hready
      exact h.resumeThread heq htake (hsafe t (by simp [Runs.getElem?_of_take htake]))

/-! ## The result -/

theorem ScreenKept.settled (h : s.ScreenKept) (hquiet : s.Quiescent) : s.ScreenSettled := by
  obtain ⟨hon, hoff⟩ := h.sound.at_rest hquiet.lightbox hquiet.work
  obtain ⟨hin, hout⟩ := h.sound.guards_at_rest hquiet.lightbox hquiet.work
  have heq : s.screen.asksOn = s.screen.turnsOn := by
    rcases h.heard with heq | hf | hf
    · exact heq
    · rw [hin] at hf
      cases hf
    · rw [hout] at hf
      cases hf
  refine ⟨fun hnone => hon (heq ▸ h.idle (Or.inl hnone)), fun hblank => ?_⟩
  have hasked : s.AskedOff := by
    rcases hblank with ha | ha | ⟨-, c, hc, hcall⟩
    · exact h.blanked (by simp [isBlanked, ha])
    · exact h.blanked (by simp [isBlanked, ha])
    · exact h.slept c hc hcall
  have hdark := hasked.resolve_right (by simp [hquiet.notification])
  exact hoff (heq ▸ hdark)

/-- **The screen follows the actions.** In every run whose steps meet `ScreenSafe`, a state in
which nothing is pending has the screen on without an action, and off in a completed blank, idle
blank or suspend. -/
theorem screenSettled_of_reach {s : State}
    (hreach : Runs.Reach PowerManager.step ScreenSafe State.init s) (hquiet : s.Quiescent) :
    s.ScreenSettled :=
  (hreach.invariant screenKept_init fun _ _ _ h hok hstep => h.step hok hstep).settled hquiet

def blankAndBack : List Event :=
  [.doSystemAction .blank false, .lightboxStopped, .resumeScreen 0 true 100,
    .resumeScreen 0 true 100, .resumeScreen 0 true 100, .resume 0 true, .resume 0 true,
    .resume 0 true, .powerButtonPress, .resume 0 true, .resumeScreen 0 true 100, .lightboxStopped,
    .resumeScreen 0 true 100]

theorem screenSettled_blankAndBack :
    ∃ s, Runs.run PowerManager.step State.init blankAndBack = some s ∧ s.ScreenSettled :=
  ⟨_, rfl, screenSettled_of_reach (Runs.Reach.of_run blankAndBack (by decide) rfl)
    ⟨rfl, rfl, rfl, rfl, rfl, rfl, rfl⟩⟩

/-- The power button ends a blank whose fade is over and whose `_turnOffScreen` waits for the
sensor daemon. The screen is turned on, and then the rest of `_turnOffScreen` turns the LED off
and keeps the inhibition. -/
def cancelledDuringInhibit : List Event :=
  [.doSystemAction .blank false, .lightboxStopped, .resumeScreen 0 true 100,
    .resumeScreen 0 true 100, .powerButtonPress, .resume 0 true, .resumeScreen 0 true 100,
    .lightboxStopped, .resumeScreen 0 true 100, .resume 0 true, .resume 0 true]

theorem not_screenSettled_cancelledDuringInhibit :
    ∃ s, Runs.run PowerManager.step State.init cancelledDuringInhibit = some s ∧ s.Quiescent ∧
      s.isInAction = none ∧ s.screen.ledWritten = some 0 ∧ s.screen.adaptiveInhibits = 1 ∧
      ¬s.ScreenSettled := by
  refine ⟨_, rfl, ⟨rfl, rfl, rfl, rfl, rfl, rfl, rfl⟩, rfl, rfl, rfl, fun h => ?_⟩
  exact (h.lit rfl).2.1 rfl

end State

end PowerManager
