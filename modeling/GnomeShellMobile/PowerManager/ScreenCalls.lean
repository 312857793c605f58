import GnomeShellMobile.PowerManager.Step

/-!
# PowerManager — what a step asks of the screen

An event makes at most one call of the screen functions, or lets pending screen work go on. Which
call it is, and which action is recorded afterwards, is read off the fields before the step.

* **`eventTurn`**: the call and the action, by the guards of the functions.
* **`step_turn`**: every step does what `eventTurn` says.
-/

namespace PowerManager

inductive Screen.Call where
  | turnOff (owner : Option Nat)
  | turnOn
  | dim
  | undim
  deriving DecidableEq, Repr

def Screen.call (s : Screen) : Option Screen.Call → Screen
  | none => s
  | some (.turnOff owner) => s.turnOffScreen owner
  | some .turnOn => s.turnOnScreen
  | some .dim => s.dim
  | some .undim => s.undim

structure Turn where
  call : Option Screen.Call
  action : Option Action
  deriving DecidableEq, Repr

namespace State

variable (s : State)

def Took (s' : State) (t : Turn) : Prop :=
  s'.screen = s.screen.call t.call ∧ s'.isInAction = t.action

def still : Turn := ⟨none, s.isInAction⟩

/-! ## Cancelling -/

def tearDownCall (ongoing : Action) : Option Screen.Call :=
  if s.tearDownThrows then none
  else
    match ongoing with
    | .dim => some .undim
    | .idleBlank | .blank | .suspend | .suspendForced | .hibernate => some .turnOn
    | .shutdown | .logout | .nothing => none

/-- `_maybeCancelAction(reason)` tears an action down without waiting for the proximity sensor. -/
def cancelsAtOnce (reason : CancelReason) : Bool :=
  !s.suspended && s.cancellingActionLock.isNone &&
    match reason with
    | .powerButtonPress | .sessionInactive => s.isInAction.isSome
    | .suspendWakeup => false
    | .userActive => s.isInAction == some .dim

def cancelTurn (reason : CancelReason) : Turn :=
  if s.cancelsAtOnce reason then ⟨s.isInAction.bind s.tearDownCall, none⟩ else s.still

def pressTurn : Turn :=
  if s.ignoreInputAfterSuspend then s.still else s.cancelTurn .powerButtonPress

/-! ## Entering an action -/

variable (action : Action)

def enters : Bool :=
  s.isInAction.isNone && s.sessionIsActive && s.actionStartCancellable.isNone && !s.suspended &&
    action != .nothing

/-- The call of `enterBody`; `c` is the cancellable of the body. -/
def bodyCall (c : Nat) : Option Screen.Call :=
  match action with
  | .dim => some .dim
  | .idleBlank | .blank => some (.turnOff (some c))
  | .suspendForced =>
      if s.env.lockEnabled && !s.env.shieldLocked then none else some (.turnOff (some c))
  | .suspend | .hibernate | .shutdown | .logout | .nothing => none

def entryTurn : Turn :=
  if s.enters action then ⟨s.bodyCall action s.nextId, some action⟩ else s.still

def actionTurn : Turn :=
  if s.cancellingActionLock.isSome then s.still else (s.upgrade action).entryTurn action

/-! ## Continuations and events -/

def bodyTurn (b : Body) (answer : Bool) : BodyPc → Turn
  | .canSleep =>
      if answer && !s.isCancelled b.cancellable then
        ⟨some (.turnOff (some b.cancellable)), s.isInAction⟩
      else s.still
  | .forcedPainted =>
      if s.isCancelled b.cancellable then s.still
      else ⟨some (.turnOff (some b.cancellable)), s.isInAction⟩
  | .sleepCalled => if answer then s.still else ⟨some .turnOn, none⟩
  | _ => s.still

def threadTurn (answer : Bool) : Thread → Turn
  | .queued _ action _ _ =>
      if s.newActionQueued then (s.upgrade action).entryTurn action else s.still
  | .body b pc => s.bodyTurn b answer pc
  | .cancelPocket _ _ ongoing => if answer then s.still else ⟨s.tearDownCall ongoing, none⟩
  | .powerKeyPress => s.pressTurn
  | .suspendAgainPocket ongoing =>
      if s.isInAction = some ongoing ∧ answer = false then ⟨none, some .blank⟩ else s.still
  | .suspendAgainCall => if answer then s.still else ⟨some .turnOn, none⟩
  | .wakeUpPocket =>
      if !answer && s.isBlanked then ⟨some .turnOn, s.isInAction⟩ else s.still
  | _ => s.still

/-- What an event asks of the screen, and the action it leaves recorded. Pending screen work that goes
on is not part of it. -/
def eventTurn : Event → Turn
  | .doSystemAction action _ => s.actionTurn action
  | .powerButtonPress => s.pressTurn
  | .sessionIsActiveChanged active =>
      if s.sessionIsActive && !active then s.cancelTurn .sessionInactive else s.still
  | .prepareForSleep true _ =>
      -- a suspend or hibernate that has called logind goes on by itself
      if s.suspended && s.cancellingActionLock.isNone &&
          (s.isInAction == some .suspend || s.isInAction == some .hibernate) then s.still
      else s.actionTurn .suspendForced
  | .prepareForSleep false _ => if s.isInAction.isSome then s.still else ⟨some .turnOn, none⟩
  | .userActive powerKey =>
      if s.deferredIdleBlankId || powerKey then s.still
      else { s with userActiveId := false, userAlreadyIdle := false }.cancelTurn .userActive
  | .notificationTimeout => ⟨some (.turnOff none), s.isInAction⟩
  | .deferredIdleBlankTimeout => s.actionTurn .idleBlank
  | .resume i answer => (s.threads[i]?).elim s.still (s.threadTurn answer)
  | _ => s.still

variable {s} {s' : State} {t : Turn}

/-! ## The functions take their turns -/

theorem Took.after {s'' : State} (h : s.Took s' t) (hs : s''.screen = s'.screen)
    (ha : s''.isInAction = s'.isInAction) : s.Took s'' t :=
  ⟨hs.trans h.1, ha.trans h.2⟩

theorem took_still (hs : s'.screen = s.screen) (ha : s'.isInAction = s.isInAction) :
    s.Took s' s.still := ⟨hs, ha⟩

theorem installWatch_frame (entry : Option Nat) : (s.installWatch entry).screen = s.screen ∧
    (s.installWatch entry).isInAction = s.isInAction ∧
    (s.installWatch entry).nextId = s.nextId ∧ (s.installWatch entry).env = s.env := by
  unfold installWatch
  split <;> exact ⟨rfl, rfl, rfl, rfl⟩

theorem returnAction_frame (forSleep : Bool) : (s.returnAction forSleep).screen = s.screen ∧
    (s.returnAction forSleep).isInAction = s.isInAction := by
  unfold returnAction
  split <;> exact ⟨rfl, rfl⟩

variable (reason : CancelReason)

theorem settleCancel_frame (returned : Bool) :
    (s.settleCancel reason returned).screen = s.screen ∧
      (s.settleCancel reason returned).isInAction = s.isInAction := by
  unfold settleCancel
  split <;> exact ⟨rfl, rfl⟩

theorem afterSleepAction_frame : s.afterSleepAction.screen = s.screen ∧
    s.afterSleepAction.isInAction = s.isInAction := by
  unfold afterSleepAction
  split
  · exact ⟨rfl, rfl⟩
  · split
    · exact ⟨rfl, rfl⟩
    · split
      · exact ⟨rfl, rfl⟩
      · obtain ⟨haction, -, -, hscreen⟩ := s.syncInhibitor_frame false true false
        exact ⟨hscreen, haction⟩

theorem tearDown_turn (ongoing : Action) :
    s.Took (s.tearDown ongoing) ⟨s.tearDownCall ongoing, none⟩ := by
  have hthrows : s.cancelStart.tearDownThrows = s.tearDownThrows := rfl
  unfold tearDown tearDownCall
  extract_lets s₁ s₂ s₃ s₄
  have h₂ : s₂.screen = s.screen ∧ s₂.isInAction = none := by
    unfold s₂
    split <;> exact ⟨rfl, rfl⟩
  rw [← hthrows]
  split
  · exact ⟨rfl, rfl⟩
  · obtain ⟨hscreen, hnone⟩ := h₂
    cases ongoing with
    | dim => exact ⟨congrArg Screen.undim hscreen, hnone⟩
    | idleBlank =>
      have h₄ : s₄.screen = s.screen ∧ s₄.isInAction = none := by
        unfold s₄
        split <;> exact ⟨hscreen, hnone⟩
      exact ⟨congrArg Screen.turnOnScreen h₄.1, h₄.2⟩
    | blank | suspend | suspendForced | hibernate =>
      exact ⟨congrArg Screen.turnOnScreen hscreen, hnone⟩
    | shutdown | logout | nothing => exact ⟨hscreen, hnone⟩

theorem maybeCancelAction_turn :
    s.Took (s.maybeCancelAction reason) (s.cancelTurn reason) := by
  have hkeep : ∀ {s' : State}, s.cancelsAtOnce reason = false → s'.screen = s.screen →
      s'.isInAction = s.isInAction → s.Took s' (s.cancelTurn reason) := by
    intro s' hc hs ha
    rw [cancelTurn, hc]
    exact took_still hs ha
  have htorn : ∀ {ongoing : Action} {returned : Bool}, s.isInAction = some ongoing →
      s.cancelsAtOnce reason = true → s.Took ((s.tearDown ongoing).lockCancelling.push
        (.cancelFinally s.nextId reason returned)) (s.cancelTurn reason) := by
    intro ongoing returned ha hc
    rw [cancelTurn, hc, ha]
    exact (tearDown_turn ongoing).after rfl rfl
  unfold maybeCancelAction
  split
  · rename_i ha
    refine hkeep ?_ rfl rfl
    cases reason <;> simp [cancelsAtOnce, ha]
  · rename_i ongoing ha
    split
    · rename_i hs
      refine hkeep (by simp [cancelsAtOnce, hs]) ?_ ?_
      · exact (settleCancel_frame reason false).1
      · exact (settleCancel_frame reason false).2
    · rename_i hs
      split
      · rename_i hlock
        have hc : s.cancelsAtOnce reason = false := by
          simp only [Option.isSome_iff_ne_none, ne_eq] at hlock
          simp [cancelsAtOnce, hlock]
        split
        · obtain ⟨hscreen, haction⟩ :=
            settleCancel_frame (s := { s with newActionQueued := false }) reason true
          exact hkeep hc hscreen haction
        · obtain ⟨hscreen, haction⟩ := settleCancel_frame (s := s) reason false
          exact hkeep hc hscreen haction
      · rename_i hlock
        have hfree : s.cancellingActionLock.isNone = true := by simpa using hlock
        have hawake : s.suspended = false := by simpa using hs
        cases reason with
        | powerButtonPress => exact htorn ha (by simp [cancelsAtOnce, hfree, hawake, ha])
        | sessionInactive => exact htorn ha (by simp [cancelsAtOnce, hfree, hawake, ha])
        | suspendWakeup =>
          have hc : s.cancelsAtOnce .suspendWakeup = false := by simp [cancelsAtOnce]
          dsimp only
          split
          · exact hkeep hc rfl rfl
          · split <;> exact hkeep hc rfl rfl
        | userActive =>
          dsimp only
          split
          · rename_i hdim
            exact htorn ha (by simp [cancelsAtOnce, hfree, hawake, ha, hdim])
          · rename_i hdim
            exact hkeep (by simp [cancelsAtOnce, ha, hdim]) rfl rfl

theorem resumeCancel_turn (ongoing : Action) (near : Bool) :
    s.Took (s.resumeCancel reason ongoing near)
      (if near then s.still else ⟨s.tearDownCall ongoing, none⟩) := by
  unfold resumeCancel
  split
  · dsimp only
    obtain ⟨hscreen, haction⟩ := settleCancel_frame (s := { (if reason = .suspendWakeup then
      { s.installWatch none with suspendAgainTimeout := some ongoing } else s) with
        cancellingActionLock := none }) reason false
    obtain ⟨hwatch, hsame, -⟩ := installWatch_frame (s := s) none
    refine took_still (hscreen.trans ?_) (haction.trans ?_)
    · show (if reason = .suspendWakeup then _ else s).screen = _
      split
      · exact hwatch
      · rfl
    · show (if reason = .suspendWakeup then _ else s).isInAction = _
      split
      · exact hsame
      · rfl
  · have htorn := tearDown_turn (s := s) ongoing
    dsimp only
    split
    · obtain ⟨hscreen, haction⟩ := settleCancel_frame
        (s := { s.tearDown ongoing with cancellingActionLock := none }) reason true
      exact htorn.after hscreen haction
    · exact htorn.after rfl rfl

theorem powerButtonPress_turn : s.Took s.powerButtonPress s.pressTurn := by
  unfold powerButtonPress pressTurn
  split
  · exact took_still rfl rfl
  · split
    · exact maybeCancelAction_turn _
    · rename_i hnone
      have hidle : s.isInAction = none := by simpa using hnone
      have hc : s.cancelsAtOnce .powerButtonPress = false := by simp [cancelsAtOnce, hidle]
      rw [cancelTurn, hc]
      exact took_still rfl rfl

variable (b : Body)

theorem lockAndTurnOff_turn (pc : Bool → BodyPc) :
    s.Took (s.lockAndTurnOff b pc) ⟨some (.turnOff (some b.cancellable)), s.isInAction⟩ := by
  unfold lockAndTurnOff
  dsimp only
  split <;> exact ⟨rfl, rfl⟩

theorem enterBody_turn :
    s.Took (s.enterBody b) ⟨s.bodyCall b.action b.cancellable, s.isInAction⟩ := by
  obtain ⟨action, c, watchEarly, forSleep⟩ := b
  cases action with
  | blank => exact lockAndTurnOff_turn _ _
  | suspendForced =>
    simp only [enterBody, bodyCall]
    by_cases hlock : (s.env.lockEnabled && !s.env.shieldLocked) = true
    · rw [if_pos hlock, if_pos (show (s.setSuspended.env.lockEnabled &&
        !s.setSuspended.env.shieldLocked) = true from hlock)]
      exact ⟨rfl, rfl⟩
    · rw [if_neg hlock, if_neg (show ¬(s.setSuspended.env.lockEnabled &&
        !s.setSuspended.env.shieldLocked) = true from hlock)]
      exact ⟨rfl, rfl⟩
  | dim | idleBlank | suspend | hibernate | shutdown | logout | nothing => exact ⟨rfl, rfl⟩

theorem enterAction_turn (action : Action) (watchEarly forSleep : Bool) :
    s.Took (s.enterAction action watchEarly forSleep) (s.entryTurn action) := by
  have hkeep : ∀ {s' : State}, s.enters action = false → s'.screen = s.screen →
      s'.isInAction = s.isInAction → s.Took s' (s.entryTurn action) := by
    intro s' he hs ha
    rw [entryTurn, he]
    exact took_still hs ha
  obtain ⟨hscreen, haction⟩ := returnAction_frame (s := s) forSleep
  unfold enterAction
  split
  · rename_i hin
    refine hkeep ?_ hscreen haction
    rw [Option.isSome_iff_ne_none] at hin
    simp [enters, hin]
  · rename_i hin
    split
    · rename_i hleft
      refine hkeep ?_ hscreen haction
      simp only [Bool.not_eq_true'] at hleft
      simp [enters, hleft]
    · rename_i hactive
      split
      · rename_i hset
        refine hkeep ?_ rfl rfl
        rw [Option.isSome_iff_ne_none] at hset
        simp [enters, hset]
      · rename_i hunset
        split
        · rename_i hs
          exact hkeep (by simp [enters, hs]) rfl rfl
        · rename_i hs
          split
          · rename_i hnothing
            exact hkeep (by simp [enters, hnothing]) hscreen haction
          · rename_i hother
            have he : s.enters action = true := by
              simp_all [enters]
            rw [entryTurn, if_pos he]
            unfold startAction
            extract_lets s₁ c
            have h₁ : s₁.screen = s.screen ∧ s₁.nextId = s.nextId ∧ s₁.env = s.env := by
              unfold s₁
              split
              · obtain ⟨h, -, hn, henv⟩ := installWatch_frame (s := s) none
                exact ⟨h, hn, henv⟩
              · exact ⟨rfl, rfl, rfl⟩
            obtain ⟨hscreen₁, hid, henv⟩ := h₁
            obtain ⟨hcall, hafter⟩ := enterBody_turn (s := { s₁ with
              nextId := c + 1
              actionStartCancellable := some c
              isInAction := some action
              entry := some c
              woken := false }) ⟨action, c, watchEarly, forSleep⟩
            refine ⟨hcall.trans ?_, hafter⟩
            show s₁.screen.call (bodyCall _ action c) = _
            have hc : c = s.nextId := hid
            rw [hscreen₁, hc]
            unfold bodyCall
            dsimp only
            rw [henv]

theorem upgrade_entryTurn_congr {u : State} (hv : (u.isInAction, u.actionStartCancellable,
    u.sessionIsActive, u.suspended, u.nextId, u.env) = (s.isInAction, s.actionStartCancellable,
    s.sessionIsActive, s.suspended, s.nextId, s.env)) (action : Action) :
    (u.upgrade action).entryTurn action = (s.upgrade action).entryTurn action := by
  simp only [Prod.mk.injEq] at hv
  obtain ⟨ha, hc, hactive, hs, hid, henv⟩ := hv
  unfold upgrade
  rw [ha]
  split <;>
    simp [entryTurn, enters, bodyCall, still, cancelStart, deleteAction, ha, hc, hactive, hs, hid, henv]

theorem doSystemAction_turn (action : Action) (watchEarly forSleep : Bool) :
    s.Took (s.doSystemAction action watchEarly forSleep) (s.actionTurn action) := by
  have hupgrade : (s.upgrade action).screen = s.screen := by
    unfold upgrade
    split <;> rfl
  unfold doSystemAction actionTurn
  split
  · rename_i lock hlock
    rw [hlock]
    exact took_still rfl rfl
  · rename_i hlock
    rw [hlock]
    obtain ⟨hscreen, haction⟩ := enterAction_turn (s := s.upgrade action) action watchEarly forSleep
    exact ⟨by rw [hscreen, hupgrade]; rfl, haction⟩

theorem resumeQueued_turn (action : Action) (watchEarly forSleep : Bool) :
    s.Took (s.resumeQueued action watchEarly forSleep)
      (if s.newActionQueued then (s.upgrade action).entryTurn action else s.still) := by
  unfold resumeQueued
  cases hqueued : s.newActionQueued with
  | false =>
    obtain ⟨hscreen, haction⟩ := returnAction_frame (s := s) forSleep
    exact took_still hscreen haction
  | true =>
    obtain ⟨hscreen, haction⟩ := enterAction_turn
      (s := { s with newActionQueued := false }.upgrade action) action watchEarly forSleep
    -- the queue flag is none of the guards of an entry
    have hscreen' : ({ s with newActionQueued := false }.upgrade action).screen = s.screen := by
      unfold upgrade
      split <;> rfl
    have hturn := upgrade_entryTurn_congr (s := s) (u := { s with newActionQueued := false }) rfl action
    rw [hturn] at hscreen haction
    rw [hscreen'] at hscreen
    exact ⟨hscreen, haction⟩

theorem bodyWatch_frame : (s.bodyWatch b).screen = s.screen ∧
    (s.bodyWatch b).isInAction = s.isInAction := by
  unfold bodyWatch
  split
  · exact ⟨rfl, rfl⟩
  · obtain ⟨hscreen, haction, -⟩ := installWatch_frame (s := s) (some b.cancellable)
    exact ⟨hscreen, haction⟩

theorem bodyShowLater_frame (showLater : Bool) :
    (s.bodyShowLater b showLater).screen = s.screen ∧
      (s.bodyShowLater b showLater).isInAction = s.isInAction := by
  unfold bodyShowLater
  split <;> exact ⟨rfl, rfl⟩

theorem callLogind_frame : (s.callLogind b).screen = s.screen ∧
    (s.callLogind b).isInAction = s.isInAction := by
  unfold callLogind
  dsimp only
  split <;> exact ⟨rfl, rfl⟩

theorem resumeBody_turn (pc : BodyPc) (answer : Bool) :
    s.Took (s.resumeBody b pc answer) (s.bodyTurn b answer pc) := by
  obtain ⟨hwatch, hwatched⟩ := bodyWatch_frame (s := s) b
  cases pc with
  | idleBlankFaded =>
    simp only [resumeBody]
    split <;> exact took_still rfl rfl
  | idleBlankSlept =>
    simp only [resumeBody]
    split
    · exact took_still rfl rfl
    · split <;> exact took_still hwatch hwatched
  | idleBlankLockDelay =>
    simp only [resumeBody]
    split <;> exact took_still rfl rfl
  | blankFaded showLater =>
    obtain ⟨hshown, hshows⟩ := bodyShowLater_frame (s := s) b showLater
    simp only [resumeBody]
    split <;> exact took_still hshown hshows
  | blankSlept =>
    simp only [resumeBody]
    split
    · exact took_still rfl rfl
    · exact took_still hwatch hwatched
  | canSleep =>
    simp only [resumeBody, bodyTurn]
    cases answer with
    | false => exact took_still rfl rfl
    | true =>
      cases hc : s.isCancelled b.cancellable with
      | true => exact took_still rfl rfl
      | false => exact lockAndTurnOff_turn b _
  | sleepFaded showLater =>
    obtain ⟨hshown, hshows⟩ := bodyShowLater_frame (s := s) b showLater
    simp only [resumeBody]
    split
    · exact took_still hshown hshows
    · obtain ⟨hlater, hwatching⟩ := bodyWatch_frame (s := s.bodyShowLater b showLater) b
      obtain ⟨hcall, hcalled⟩ := callLogind_frame (s := (s.bodyShowLater b showLater).bodyWatch b) b
      exact took_still (hcall.trans (hlater.trans hshown)) (hcalled.trans (hwatching.trans hshows))
  | sleepCalled =>
    simp only [resumeBody, bodyTurn]
    split
    · exact took_still rfl rfl
    · exact ⟨rfl, rfl⟩
  | forcedPainted =>
    simp only [resumeBody, bodyTurn]
    split
    · exact took_still rfl rfl
    · exact ⟨rfl, rfl⟩
  | forcedFaded =>
    simp only [resumeBody]
    split
    · exact took_still rfl rfl
    · exact took_still hwatch hwatched

theorem resumeThread_turn (th : Thread) (answer : Bool) :
    s.Took (s.resumeThread th answer) (s.threadTurn answer th) := by
  cases th with
  | queued lock action watchEarly forSleep => exact resumeQueued_turn _ _ _
  | body b pc => exact resumeBody_turn _ _ _
  | bodyFinally b =>
    obtain ⟨hscreen, haction⟩ :=
      returnAction_frame (s := { s with actionStartCancellable := none }) b.forSleep
    exact took_still hscreen haction
  | cancelPocket lock reason ongoing => exact resumeCancel_turn _ _ _
  | cancelFinally lock reason returned =>
    simp only [resumeThread]
    split
    · obtain ⟨hscreen, haction⟩ :=
        settleCancel_frame (s := { s with cancellingActionLock := none }) reason true
      exact took_still hscreen haction
    · exact took_still rfl rfl
  | userActive cancelled =>
    simp only [resumeThread, resumeUserActive]
    split
    · exact took_still rfl rfl
    · split
      · exact took_still rfl rfl
      · obtain ⟨hscreen, haction, -⟩ := installWatch_frame (s := s) none
        exact took_still hscreen haction
  | powerKeyPress => exact powerButtonPress_turn
  | sleepAction =>
    obtain ⟨hscreen, haction⟩ := afterSleepAction_frame (s := s)
    exact took_still hscreen haction
  | suspendAgainPocket ongoing =>
    simp only [resumeThread, resumeSuspendAgain, threadTurn]
    split
    · rename_i ha
      rw [if_neg fun h => ha h.1]
      exact took_still rfl rfl
    · rename_i ha
      have hsame : s.isInAction = some ongoing := not_not.mp ha
      cases answer with
      | false =>
        show s.Took { s with isInAction := some .blank } _
        rw [if_pos ⟨hsame, rfl⟩]
        exact ⟨rfl, rfl⟩
      | true =>
        show s.Took ((s.setSuspended.emit _).push _) _
        rw [if_neg fun h => Bool.noConfusion h.2]
        exact took_still rfl rfl
  | suspendAgainCall =>
    simp only [resumeThread, threadTurn]
    split
    · exact took_still rfl rfl
    · exact ⟨rfl, rfl⟩
  | wakeUpPocket =>
    simp only [resumeThread, resumeWakeUp, threadTurn]
    cases answer with
    | true => exact took_still rfl rfl
    | false =>
      cases hb : s.isBlanked with
      | true => exact ⟨rfl, rfl⟩
      | false => exact took_still rfl rfl
  | inhibit c =>
    simp only [resumeThread]
    split <;> exact took_still rfl rfl

theorem wakeUp_turn {u : State} (hscreen : u.screen = s.screen)
    (haction : u.isInAction = s.isInAction) :
    s.Took (if u.isInAction.isSome then u.maybeCancelAction .suspendWakeup else u.turnOnScreen)
      (if s.isInAction.isSome then s.still else ⟨some .turnOn, none⟩) := by
  rw [haction]
  split
  · obtain ⟨hcall, hafter⟩ := maybeCancelAction_turn (s := u) .suspendWakeup
    have hc : u.cancelsAtOnce .suspendWakeup = false := by simp [cancelsAtOnce]
    rw [cancelTurn, hc] at hcall hafter
    exact took_still (hcall.trans hscreen) (hafter.trans haction)
  · rename_i hnone
    refine ⟨congrArg Screen.turnOnScreen hscreen, haction.trans ?_⟩
    simpa using hnone

theorem prepareForSleep_turn (aboutToSuspend ok : Bool) :
    s.Took (s.prepareForSleep aboutToSuspend ok)
      (s.eventTurn (.prepareForSleep aboutToSuspend ok)) := by
  unfold prepareForSleep eventTurn
  cases aboutToSuspend with
  | true =>
    dsimp only
    rw [if_pos rfl]
    have hforced := doSystemAction_turn (s := { s with suspendAgainTimeout := none })
      .suspendForced false true
    have hturn : ({ s with suspendAgainTimeout := none } : State).actionTurn .suspendForced =
        s.actionTurn .suspendForced := by
      unfold actionTurn
      rw [upgrade_entryTurn_congr (s := s) (u := { s with suspendAgainTimeout := none }) rfl]
      rfl
    rw [hturn] at hforced
    split
    · rename_i hother
      rw [if_neg ?_]
      · exact hforced
      · simp only [Bool.and_eq_true, Bool.or_eq_true, beq_iff_eq, not_and, not_or]
        rintro ⟨-, hfree⟩
        refine hother.resolve_right ?_
        simpa using hfree
    · rename_i hown
      split
      · rename_i hawake
        rw [if_neg (by simp_all)]
        exact hforced
      · rename_i hsuspended
        obtain ⟨hscreen, haction⟩ :=
          afterSleepAction_frame (s := { s with suspendAgainTimeout := none })
        rw [if_pos ?_]
        · exact took_still hscreen haction
        · have hawake : s.suspended = true := by simpa using hsuspended
          have hown' : (s.isInAction = some .suspend ∨ s.isInAction = some .hibernate) ∧
              s.cancellingActionLock = none := by
            obtain ⟨haction, hfree⟩ := not_or.mp hown
            exact ⟨by by_contra hne; exact haction (not_or.mp hne), by simpa using hfree⟩
          simp [hawake, hown'.1, hown'.2]
  | false =>
    extract_lets s₁ s₂ s₃ s₄
    obtain ⟨haction, -, -, hscreen⟩ := s₂.syncInhibitor_frame true true ok
    exact wakeUp_turn (u := s₄) hscreen haction

theorem sessionIsActiveChanged_turn (active : Bool) :
    s.Took (s.sessionIsActiveChanged active) (s.eventTurn (.sessionIsActiveChanged active)) := by
  unfold sessionIsActiveChanged eventTurn
  dsimp only
  split
  · rename_i hsame
    rw [hsame, Bool.and_not_self, if_neg (by simp)]
    exact took_still rfl rfl
  · rename_i hchanged
    cases active with
    | true =>
      rw [Bool.not_true, Bool.and_false, Bool.false_and]
      exact took_still rfl rfl
    | false =>
      have hwas : s.sessionIsActive = true := by simpa using hchanged
      rw [hwas]
      split
      · exact maybeCancelAction_turn (s := { s with sessionIsActive := false }) .sessionInactive
      · rename_i hnone
        have hidle : s.isInAction = none := by simpa using hnone
        have hc : s.cancelsAtOnce .sessionInactive = false := by simp [cancelsAtOnce, hidle]
        rw [Bool.not_false, Bool.and_self, if_pos rfl, cancelTurn, hc]
        exact took_still rfl rfl

theorem onUserActive_turn (powerKey : Bool) :
    s.Took (s.onUserActive powerKey) (s.eventTurn (.userActive powerKey)) := by
  unfold onUserActive
  extract_lets s₁ s₂
  -- the turn of an event that finds a deferred idle blank, no action or the power key
  have hturn : s.eventTurn (.userActive powerKey) =
      if s.deferredIdleBlankId || powerKey then s.still else s₂.cancelTurn .userActive := rfl
  rw [hturn]
  split
  · rename_i hd
    rw [show s.deferredIdleBlankId = true from hd, Bool.true_or]
    exact took_still rfl rfl
  · rename_i hd
    have hnot : s.deferredIdleBlankId = false := by simpa using hd
    rw [hnot, Bool.false_or]
    split
    · rename_i hnone
      have hidle : s₂.isInAction = none := by simpa using hnone
      have hc : s₂.cancelsAtOnce .userActive = false := by simp [cancelsAtOnce, hidle]
      rw [cancelTurn, hc]
      split <;> exact took_still rfl rfl
    · split
      · exact took_still rfl rfl
      · exact maybeCancelAction_turn (s := s₂) .userActive

theorem threadTurn_rest (rest : List Thread) (answer : Bool) (th : Thread) :
    ({ s with threads := rest } : State).threadTurn answer th = s.threadTurn answer th := by
  cases th with
  | queued lock action watchEarly forSleep =>
    simp only [threadTurn]
    rw [upgrade_entryTurn_congr (s := s) (u := { s with threads := rest }) rfl]
    rfl
  | body b pc => cases pc <;> rfl
  | bodyFinally _ | cancelPocket _ _ _ | cancelFinally _ _ _ | userActive _ | powerKeyPress
  | sleepAction | suspendAgainPocket _ | suspendAgainCall | wakeUpPocket | inhibit _ => rfl

/-- **The step lemma.** A step takes the turn of its event, or the lightbox stops, or a piece of screen
work goes on. -/
theorem step_turn {e : Event} (hstep : step s e = some s') : match e with
    | .lightboxStopped => s.screen.lightboxStopped = some s'.screen ∧ s'.isInAction = s.isInAction
    | .resumeScreen i ok brightness =>
        s.screen.resumeWork i ok brightness = some s'.screen ∧ s'.isInAction = s.isInAction
    | e => s.Took s' (s.eventTurn e) := by
  cases e with
  | doSystemAction action watchEarly =>
    cases hstep
    exact doSystemAction_turn _ _ _
  | powerButtonPress =>
    cases hstep
    exact powerButtonPress_turn
  | sessionIsActiveChanged active =>
    cases hstep
    exact sessionIsActiveChanged_turn _
  | prepareForSleep aboutToSuspend ok =>
    cases hstep
    exact prepareForSleep_turn _ _
  | userActive powerKey =>
    obtain ⟨-, rfl⟩ := Option.ite_some_none_eq_some.mp hstep
    exact onUserActive_turn _
  | ignoreInputTimeout =>
    obtain ⟨-, hsome⟩ := Option.ite_none_left_eq_some.mp hstep
    cases hsome
    exact took_still rfl rfl
  | suspendAgainTimeout =>
    obtain ⟨ongoing, -, rfl⟩ := Option.map_eq_some_iff.mp hstep
    exact took_still rfl rfl
  | wakeUpScreen =>
    cases hstep
    show s.Took (if s.isBlanked then s.push .wakeUpPocket else s) s.still
    split <;> exact took_still rfl rfl
  | notificationTimeout =>
    obtain ⟨-, rfl⟩ := Option.ite_some_none_eq_some.mp hstep
    exact ⟨rfl, rfl⟩
  | deferredIdleBlankTimeout =>
    obtain ⟨-, rfl⟩ := Option.ite_some_none_eq_some.mp hstep
    exact (doSystemAction_turn .idleBlank true false).after rfl rfl
  | loginSessionChanged active =>
    cases hstep
    obtain ⟨haction, -, -, hscreen⟩ :=
      ({ s with loginSessionActive := active } : State).syncInhibitor_frame true false false
    exact took_still hscreen haction
  | envChanged env =>
    cases hstep
    exact took_still rfl rfl
  | lightboxStopped =>
    obtain ⟨screen, hstop, rfl⟩ := Option.map_eq_some_iff.mp hstep
    exact ⟨hstop, rfl⟩
  | resumeScreen i ok brightness =>
    obtain ⟨screen, hresume, rfl⟩ := Option.map_eq_some_iff.mp hstep
    exact ⟨hresume, rfl⟩
  | resume i answer =>
    obtain ⟨⟨th, rest⟩, htake, hready⟩ := Option.bind_eq_some_iff.mp hstep
    obtain ⟨-, rfl⟩ := Option.ite_some_none_eq_some.mp hready
    have hget := Runs.getElem?_of_take htake
    have hturn := resumeThread_turn (s := { s with threads := rest }) th answer
    show s.Took _ ((s.threads[i]?).elim s.still (s.threadTurn answer))
    rw [hget, Option.elim_some, ← threadTurn_rest rest]
    exact hturn

end State

end PowerManager
