import GnomeShellMobile.Runs.Basic
import GnomeShellMobile.PowerManager.Step

/-!
# PowerManager — a sleep announced by logind is let through

`_prepareForSleep(true)` records a forced suspend, waits for its entry body, and then expects
`_suspended` to be set so that it may release the delay inhibitor. `_suspended` is set by that
body, or by the suspend or hibernate that called logind; but a `PrepareForSleep(false)` deletes
it again, and leaves the action recorded when the device woke up in a pocket.

* `FinishesSleep` — the steps in which a `_prepareForSleep(true)` comes to its end.
* `SleepAwaited` — the side condition: at such a step the recorded action has called logind or
  is the forced suspend, and has not been woken since.
* `Announced` — the inductive invariant.
-/

namespace PowerManager

def Thread.ids : Thread → List Nat
  | .body b _ => [b.cancellable]
  | .bodyFinally b => [b.cancellable]
  | .inhibit c => [c]
  | _ => []

namespace State

variable (s : State)

/-- The recorded action sets `_suspended`: it is the forced suspend, or a suspend or hibernate
whose entry body has called logind. -/
def EnteredSleep : Prop :=
  s.isInAction = some .suspendForced ∨
    (s.isInAction = some .suspend ∨ s.isInAction = some .hibernate) ∧
      ∃ c ∈ s.entry, s.CalledLogind c
deriving Decidable

/-- The step is the end of a `_prepareForSleep(true)` that did not throw before. -/
def FinishesSleep : Event → Prop
  | .prepareForSleep true _ =>
      (s.isInAction = some .suspend ∨ s.isInAction = some .hibernate) ∧
        s.cancellingActionLock = none ∧ s.suspended = true
  | .resume i _ => s.threads[i]? = some .sleepAction
  | _ => False

/-- What `_prepareForSleep(true)` promises when it finishes in state `s` and leaves `s'`:
`_suspended` is set and the delay inhibitor is released, so the internal error is not thrown. -/
structure SleepReleased (s s' : State) : Prop where
  suspended : s.suspended = true
  released : s'.inhibitor = false
  noThrow : ∀ a, .error (.notSuspended a) ∉ s'.log

/-- No `_prepareForSleep(true)` that had to wait finishes while a recorded suspend, hibernate or
forced suspend was woken by a `PrepareForSleep(false)`, or has not called logind yet. -/
def SleepAwaited : Event → Prop
  | .resume i _ =>
      s.threads[i]? = some .sleepAction → s.isInAction.any isSuspendAction = true →
        s.EnteredSleep ∧ s.woken = false
  | _ => True

instance (e : Event) : Decidable (s.SleepAwaited e) := by
  rcases e with _ | _ <;> unfold SleepAwaited <;> infer_instance

/-! ## The invariant -/

structure Fresh : Prop where
  thread_lt : ∀ t ∈ s.threads, ∀ c ∈ t.ids, c < s.nextId
  called_lt : ∀ c, s.CalledLogind c → c < s.nextId
  inhibit_lt : ∀ c, s.inhibitCancellable = some c → c < s.nextId

/-- `_suspended` follows the recorded action up to its wake-up, and a released inhibitor stays
released: the pending request for a new one, if any, is cancelled. -/
structure Announced : Prop extends Fresh s where
  asleep : s.EnteredSleep → s.suspended = true ∨ s.woken = true
  released : s.inhibited = some false →
    s.inhibitor = false ∧ ∀ c, .inhibit c ∈ s.threads → s.inhibitCancellable ≠ some c
  noThrow : ∀ a, .error (.notSuspended a) ∉ s.log

theorem announced_init : State.init.Announced := by
  refine ⟨⟨?_, ?_, ?_⟩, ?_, ?_, ?_⟩ <;> simp [State.init, CalledLogind, EnteredSleep]

/-! ### Updates -/

def sleepView :=
  (s.isInAction, s.entry, s.suspended, s.woken, s.inhibited, s.inhibitor, s.inhibitCancellable,
    s.threads, s.log, s.nextId)

variable {s s' : State}

section

variable (h : s.Announced)
include h

theorem Announced.congr (hv : s'.sleepView = s.sleepView) : s'.Announced := by
  simp only [sleepView, Prod.mk.injEq] at hv
  obtain ⟨ha, he, hs, hw, hi, hr, hc, ht, hl, hn⟩ := hv
  refine ⟨⟨?_, ?_, ?_⟩, ?_, ?_, ?_⟩
  · rw [ht, hn]
    exact h.thread_lt
  · unfold CalledLogind
    rw [hl, hn]
    exact h.called_lt
  · rw [hc, hn]
    exact h.inhibit_lt
  · unfold EnteredSleep CalledLogind
    rw [ha, he, hs, hw, hl]
    exact h.asleep
  · rw [hi, hr, hc, ht]
    exact h.released
  · rw [hl]
    exact h.noThrow

theorem Announced.push {t : Thread} (hids : ∀ c ∈ t.ids, c < s.nextId)
    (ht : ∀ c, t ≠ .inhibit c) : (s.push t).Announced where
  __ := h
  thread_lt u hu := by
    rcases List.mem_cons.mp hu with rfl | hu
    · exact hids
    · exact h.thread_lt u hu
  released hi := by
    refine ⟨(h.released hi).1, fun c hc => (h.released hi).2 c ?_⟩
    exact (List.mem_cons.mp hc).resolve_left fun he => ht c he.symm

theorem Announced.setScreen (screen : Screen) :
    { s with screen := screen }.Announced :=
  h.congr rfl

theorem Announced.turnOffScreen (owner : Option Nat) :
    (s.turnOffScreen owner).Announced :=
  h.setScreen _

theorem Announced.turnOnScreen : s.turnOnScreen.Announced := h.setScreen _

theorem Announced.pushBody {b : Body} (hb : b.cancellable < s.nextId)
    (pc : BodyPc) : (s.push (.body b pc)).Announced :=
  h.push (by simpa [Thread.ids] using hb) (by simp)

theorem Announced.finishBody {b : Body} (hb : b.cancellable < s.nextId) :
    (s.finishBody b).Announced :=
  h.push (by simpa [Thread.ids] using hb) (by simp)

theorem Announced.emit {e : Effect} (hs : ∀ c, e ≠ .logindSuspend (some c))
    (hh : ∀ c, e ≠ .logindHibernate c) (he : ∀ a, e ≠ .error (.notSuspended a)) :
    (s.emit e).Announced := by
  have hcalled : ∀ c, (s.emit e).CalledLogind c → s.CalledLogind c := by
    rintro c (hc | hc)
    · exact Or.inl ((List.mem_cons.mp hc).resolve_left fun heq => hs c heq.symm)
    · exact Or.inr ((List.mem_cons.mp hc).resolve_left fun heq => hh c heq.symm)
  exact {
    __ := h
    called_lt := fun c hc => h.called_lt c (hcalled c hc)
    asleep := fun hin => h.asleep (hin.imp_right fun ⟨ha, c, hc, hcall⟩ =>
      ⟨ha, c, hc, hcalled c hcall⟩)
    noThrow := fun a ha => (List.mem_cons.mp ha).elim (fun heq => he a heq.symm) (h.noThrow a) }

theorem Announced.throw {e : Error} (he : ∀ a, e ≠ .notSuspended a) :
    (s.throw e).Announced :=
  h.emit (by simp) (by simp) (by simpa using he)

theorem Announced.installWatch (entry : Option Nat) :
    (s.installWatch entry).Announced := by
  unfold State.installWatch
  split
  · exact h
  · exact (h.emit (e := .userActiveWatch entry) (by simp) (by simp) (by simp)).congr rfl

theorem Announced.bodyWatch (b : Body) : (s.bodyWatch b).Announced := by
  unfold State.bodyWatch
  split
  · exact h
  · exact h.installWatch _

theorem Announced.bodyShowLater (b : Body) (showLater : Bool) :
    (s.bodyShowLater b showLater).Announced := by
  unfold State.bodyShowLater
  split
  · exact h.emit (by simp) (by simp) (by simp)
  · exact h

theorem Announced.inactive (suspended woken : Bool) :
    { s with isInAction := none, entry := none, suspended := suspended, woken := woken }.Announced
    where
  __ := h
  asleep hin := by simp [EnteredSleep] at hin

theorem Announced.deleteAction : s.deleteAction.Announced :=
  h.inactive s.suspended false

theorem Announced.cancelStart : s.cancelStart.Announced := by
  have hlogged : { s with log := s.entry.toList.map Effect.revoked ++ s.log }.Announced := by
    cases he : s.entry with
    | none => exact h.congr (by simp [sleepView, he])
    | some c =>
        exact (h.emit (e := .revoked c) (by simp) (by simp) (by simp)).congr
          (by simp [sleepView, he, State.emit])
  exact hlogged.deleteAction.congr rfl

theorem Announced.setSuspended : s.setSuspended.Announced where
  __ := h
  asleep _ := Or.inl rfl

theorem Announced.emitCall (hs : s.suspended = true) {e : Effect} {c : Nat}
    (hc : c < s.nextId) (he : e = .logindSuspend (some c) ∨ e = .logindHibernate c) :
    (s.emit e).Announced where
  __ := h
  called_lt d hd := by
    rcases hd with hd | hd <;> rcases List.mem_cons.mp hd with rfl | hd
    · simp only [Effect.logindSuspend.injEq, Option.some.injEq, reduceCtorEq, or_false] at he
      exact he ▸ hc
    · exact h.called_lt d (Or.inl hd)
    · simp only [reduceCtorEq, Effect.logindHibernate.injEq, false_or] at he
      exact he ▸ hc
    · exact h.called_lt d (Or.inr hd)
  asleep _ := Or.inl hs
  noThrow a ha := by
    rcases List.mem_cons.mp ha with rfl | ha
    · simp at he
    · exact h.noThrow a ha

theorem Announced.callLogind {b : Body} (hb : b.cancellable < s.nextId) :
    (s.callLogind b).Announced := by
  unfold State.callLogind
  dsimp only
  split
  · exact h.setSuspended.emitCall rfl hb (Or.inr rfl)
  · exact h.setSuspended.emitCall rfl hb (Or.inl rfl)

theorem Announced.lockAndTurnOff {b : Body} (hb : b.cancellable < s.nextId)
    (pc : Bool → BodyPc) : (s.lockAndTurnOff b pc).Announced := by
  unfold State.lockAndTurnOff
  dsimp only
  split
  · have hlocked := h.emit (e := .lock b.cancellable) (by simp) (by simp) (by simp)
    exact (hlocked.turnOffScreen _).pushBody hb _
  · exact (h.turnOffScreen _).pushBody hb _

theorem Announced.syncInhibitor (shouldInhibit sync ok : Bool) :
    (s.syncInhibitor shouldInhibit sync ok).Announced := by
  have hold : ∀ c, .inhibit c ∈ s.threads → some s.nextId ≠ some c := by
    rintro c hc ⟨⟩
    exact Nat.lt_irrefl _ (h.thread_lt _ hc s.nextId (by simp [Thread.ids]))
  unfold State.syncInhibitor
  extract_lets inhibit s₁
  have hfresh : s₁.Fresh := {
    thread_lt := fun t ht c hc => Nat.lt_succ_of_lt (h.thread_lt t ht c hc)
    called_lt := fun c hc => Nat.lt_succ_of_lt (h.called_lt c hc)
    inhibit_lt := fun c hc => by
      cases hc
      exact Nat.lt_succ_self _ }
  split
  · exact h
  · split
    · rename_i htrue
      have hnot : s₁.inhibited ≠ some false := by simp [s₁, htrue]
      split
      · exact {
          __ := hfresh
          asleep := h.asleep
          released := fun hf => absurd hf hnot
          noThrow := h.noThrow }
      · exact {
          thread_lt := fun t ht c hc => by
            rcases List.mem_cons.mp ht with rfl | ht
            · simp only [Thread.ids, List.mem_singleton] at hc
              rw [hc]
              exact Nat.lt_succ_self _
            · exact hfresh.thread_lt t ht c hc
          called_lt := hfresh.called_lt
          inhibit_lt := hfresh.inhibit_lt
          asleep := h.asleep
          released := fun hf => absurd hf hnot
          noThrow := h.noThrow }
    · exact {
        thread_lt := hfresh.thread_lt
        called_lt := hfresh.called_lt
        inhibit_lt := hfresh.inhibit_lt
        asleep := h.asleep
        released := fun _ => ⟨rfl, hold⟩
        noThrow := h.noThrow }

end

/-! ### The functions -/

section

variable (h : s.Announced)
include h

theorem Announced.returnAction (forSleep : Bool) :
    (s.returnAction forSleep).Announced := by
  unfold State.returnAction
  split
  · exact h.push (by simp [Thread.ids]) (by simp)
  · exact h

variable (reason : CancelReason)

theorem Announced.settleCancel (returned : Bool) :
    (s.settleCancel reason returned).Announced := by
  unfold State.settleCancel
  split
  · exact h.push (by simp [Thread.ids]) (by simp)
  · exact h

theorem Announced.lockCancelling : s.lockCancelling.Announced where
  __ := h
  thread_lt t ht c hc := Nat.lt_succ_of_lt (h.thread_lt t ht c hc)
  called_lt c hc := Nat.lt_succ_of_lt (h.called_lt c hc)
  inhibit_lt c hc := Nat.lt_succ_of_lt (h.inhibit_lt c hc)

theorem Announced.tearDown (ongoing : Action) :
    (s.tearDown ongoing).Announced := by
  unfold State.tearDown
  extract_lets s₁ s₂ s₃ s₄
  have h₁ : s₁.Announced := h.cancelStart
  have h₂ : s₂.Announced := by
    unfold s₂
    split <;> exact h₁.congr rfl
  have h₃ : s₃.Announced := h₂.congr rfl
  split
  · exact h₁.throw (by simp)
  · cases ongoing with
    | idleBlank =>
        have h₄ : s₄.Announced := by
          unfold s₄
          split
          · exact h₃.emit (by simp) (by simp) (by simp)
          · exact h₃
        exact h₄.congr rfl
    | dim | blank | suspend | suspendForced | hibernate | shutdown | logout | nothing =>
        exact h₂.congr rfl

theorem Announced.maybeCancelAction :
    (s.maybeCancelAction reason).Announced := by
  have hpush : ∀ {u : State} {t : Thread}, u.Announced → t.ids = [] → (∀ c, t ≠ .inhibit c) →
      (u.lockCancelling.push t).Announced := fun hu hids ht =>
    hu.lockCancelling.push (by simp [hids]) ht
  unfold State.maybeCancelAction
  split
  · exact h.throw (by simp)
  · rename_i ongoing _
    have htorn := h.tearDown ongoing
    split
    · exact h.settleCancel _ _
    · split
      · split
        · exact Announced.settleCancel (s := { s with newActionQueued := false }) (h.congr rfl) _ _
        · exact h.settleCancel _ _
      · cases reason with
        | powerButtonPress | sessionInactive => exact hpush htorn rfl (by simp)
        | suspendWakeup =>
            dsimp only
            split
            · exact hpush (h.throw (by simp)) rfl (by simp)
            · split
              · exact hpush (h.throw (by simp)) rfl (by simp)
              · exact hpush h rfl (by simp)
        | userActive =>
            dsimp only
            split
            · exact hpush htorn rfl (by simp)
            · exact hpush h rfl (by simp)

theorem Announced.resumeCancel (ongoing : Action)
    (near : Bool) : (s.resumeCancel reason ongoing near).Announced := by
  unfold State.resumeCancel
  split
  · dsimp only
    refine Announced.settleCancel ?_ _ _
    split
    · exact (h.installWatch none).congr rfl
    · exact h.congr rfl
  · have htorn : { s.tearDown ongoing with cancellingActionLock := none }.Announced :=
      (h.tearDown ongoing).congr rfl
    dsimp only
    split
    · exact htorn.settleCancel _ _
    · exact htorn

variable (action : Action)

theorem Announced.startAction (watchEarly forSleep : Bool) :
    (s.startAction action watchEarly forSleep).Announced := by
  unfold State.startAction
  extract_lets s₁ c
  have h₁ : s₁.Announced := by
    unfold s₁
    split
    · exact h.installWatch _
    · exact h
  have hc : ¬s₁.CalledLogind c := fun hcall => Nat.lt_irrefl _ (h₁.called_lt c hcall)
  -- The forced suspend alone has `_suspended` to set, and sets it first.
  have hstart : ∀ suspended, (action = .suspendForced → suspended = true) → { s₁ with
      nextId := c + 1
      actionStartCancellable := some c
      isInAction := some action
      entry := some c
      suspended := suspended
      woken := false }.Announced := fun suspended hforced => {
    thread_lt := fun t ht d hd => Nat.lt_succ_of_lt (h₁.thread_lt t ht d hd)
    called_lt := fun d hd => Nat.lt_succ_of_lt (h₁.called_lt d hd)
    inhibit_lt := fun d hd => Nat.lt_succ_of_lt (h₁.inhibit_lt d hd)
    asleep := fun hin => by
      rcases hin with hin | ⟨-, d, hd, hcall⟩
      · exact Or.inl (hforced (Option.some.inj hin))
      · cases hd
        exact absurd hcall hc
    released := h₁.released
    noThrow := h₁.noThrow }
  have hlt : c < c + 1 := Nat.lt_succ_self c
  cases action with
  | suspendForced =>
      have h₂ := hstart true fun _ => rfl
      simp only [enterBody]
      split
      · exact Announced.pushBody (h₂.emit (e := .lock c) (by simp) (by simp) (by simp)) hlt _
      · exact Announced.pushBody (h₂.turnOffScreen _) hlt _
  | blank => exact Announced.lockAndTurnOff (hstart s₁.suspended (by simp)) hlt _
  | idleBlank => exact Announced.pushBody ((hstart s₁.suspended (by simp)).turnOffScreen _) hlt _
  | suspend => exact Announced.pushBody (hstart s₁.suspended (by simp)) hlt _
  | hibernate => exact Announced.pushBody (hstart s₁.suspended (by simp)) hlt _
  | dim => exact Announced.finishBody ((hstart s₁.suspended (by simp)).setScreen _) hlt
  | shutdown => exact Announced.finishBody (hstart s₁.suspended (by simp)) hlt
  | logout => exact Announced.finishBody (hstart s₁.suspended (by simp)) hlt
  | nothing => exact Announced.finishBody (hstart s₁.suspended (by simp)) hlt

theorem Announced.upgrade_enterAction
    (watchEarly forSleep : Bool) :
    ((s.upgrade action).enterAction action watchEarly forSleep).Announced := by
  have hup : (s.upgrade action).Announced := by
    unfold State.upgrade
    split
    · exact h.cancelStart
    · exact h
  unfold State.enterAction
  split
  · exact hup.returnAction _
  · split
    · exact hup.returnAction _
    · split
      · exact hup.throw (by simp)
      · split
        · exact hup.throw (by simp)
        · split
          · exact hup.returnAction _
          · exact hup.startAction _ _ _

theorem Announced.doSystemAction
    (watchEarly forSleep : Bool) : (s.doSystemAction action watchEarly forSleep).Announced := by
  unfold State.doSystemAction
  split
  · exact Announced.push (s := { s with newActionQueued := true }) (h.congr rfl)
      (by simp [Thread.ids]) (by simp)
  · exact h.upgrade_enterAction _ _ _

theorem Announced.resumeQueued (watchEarly forSleep : Bool) :
    (s.resumeQueued action watchEarly forSleep).Announced := by
  unfold State.resumeQueued
  split
  · exact h.returnAction _
  · exact Announced.upgrade_enterAction (s := { s with newActionQueued := false }) (h.congr rfl) _ _ _

theorem Announced.resumeBody {b : Body} (hb : b.cancellable < s.nextId)
    (pc : BodyPc) (answer : Bool) : (s.resumeBody b pc answer).Announced := by
  have hnext : ∀ {u : State}, u.nextId = s.nextId → b.cancellable < u.nextId := fun hu =>
    hu ▸ hb
  have hwatch : (s.bodyWatch b).nextId = s.nextId := by
    unfold State.bodyWatch State.installWatch
    split
    · rfl
    · split <;> rfl
  have hshow : ∀ later, (s.bodyShowLater b later).nextId = s.nextId := by
    intro later
    unfold State.bodyShowLater
    split <;> rfl
  cases pc with
  | idleBlankFaded =>
      simp only [State.resumeBody]
      split
      · exact h.finishBody hb
      · exact h.pushBody hb _
  | idleBlankSlept =>
      simp only [State.resumeBody]
      split
      · exact h.finishBody hb
      · have hshown := (h.bodyWatch b).emit (e := .activateShield b.cancellable)
          (by simp) (by simp) (by simp)
        split
        · exact hshown.pushBody (hnext hwatch) _
        · exact hshown.finishBody (hnext hwatch)
  | idleBlankLockDelay =>
      simp only [State.resumeBody]
      split
      · exact h.finishBody hb
      · exact Announced.finishBody (h.emit (by simp) (by simp) (by simp)) hb
  | blankFaded later =>
      simp only [State.resumeBody]
      split
      · exact (h.bodyShowLater b later).finishBody (hnext (hshow later))
      · exact (h.bodyShowLater b later).pushBody (hnext (hshow later)) _
  | blankSlept | forcedFaded =>
      simp only [State.resumeBody]
      split
      · exact h.finishBody hb
      · exact (h.bodyWatch b).finishBody (hnext hwatch)
  | canSleep =>
      simp only [State.resumeBody]
      split
      · exact h.finishBody hb
      · split
        · exact h.finishBody hb
        · exact h.lockAndTurnOff hb _
  | sleepFaded later =>
      have hshown := h.bodyShowLater b later
      simp only [State.resumeBody]
      split
      · exact hshown.finishBody (hnext (hshow later))
      · have hlt : b.cancellable < ((s.bodyShowLater b later).bodyWatch b).nextId := by
          unfold State.bodyWatch State.installWatch
          split
          · exact hnext (hshow later)
          · split <;> exact hnext (hshow later)
        have hcall := (hshown.bodyWatch b).callLogind hlt
        refine hcall.pushBody ?_ _
        unfold State.callLogind
        dsimp only
        split <;> exact hlt
  | sleepCalled =>
      simp only [State.resumeBody]
      split
      · exact h.finishBody hb
      · have hdel : { s.turnOnScreen.deleteAction with suspended := false }.Announced :=
          h.turnOnScreen.inactive false false
        exact hdel.finishBody hb
  | forcedPainted =>
      simp only [State.resumeBody]
      split
      · exact h.finishBody hb
      · exact Announced.pushBody (s := s.turnOffScreen _) (h.congr rfl) hb _

theorem Announced.afterSleepAction
    (hs : s.isInAction.any isSuspendAction = true → s.suspended = true) :
    s.afterSleepAction.Announced := by
  unfold State.afterSleepAction
  split
  · exact h
  · rename_i action ha
    split
    · exact h
    · split
      · simp_all
      · exact h.syncInhibitor _ _ _

theorem Announced.prepareForSleep (aboutToSuspend ok : Bool) :
    (s.prepareForSleep aboutToSuspend ok).Announced := by
  unfold State.prepareForSleep
  extract_lets s₁ s₂ s₃ s₄
  have h₁ : s₁.Announced := h.congr rfl
  have h₂ : s₂.Announced := {
    __ := h
    asleep := fun hin => by
      have hrec : s.isInAction.isSome = true := by
        rcases hin with ha | ⟨ha | ha, -⟩ <;> simp [show s.isInAction = _ from ha]
      exact Or.inr hrec
    noThrow := h.noThrow }
  have h₄ : s₄.Announced := (h₂.syncInhibitor true true ok).congr rfl
  split
  · split
    · exact h₁.doSystemAction _ _ _
    · split
      · exact h₁.doSystemAction _ _ _
      · rename_i hs
        exact h₁.afterSleepAction fun _ => by simpa using hs
  · split
    · exact h₄.maybeCancelAction _
    · exact h₄.congr rfl

theorem Announced.onUserActive (powerKey : Bool) :
    (s.onUserActive powerKey).Announced := by
  unfold State.onUserActive
  extract_lets s₁ s₂
  have h₁ : s₁.Announced := h.congr rfl
  have h₂ : s₂.Announced := h.congr rfl
  split
  · exact h.congr rfl
  · split
    · exact h₁.throw (by simp)
    · split
      · exact h₂.push (by simp [Thread.ids]) (by simp)
      · exact h₂.maybeCancelAction _

theorem Announced.resumeUserActive (cancelled : Bool) :
    (s.resumeUserActive cancelled).Announced := by
  unfold State.resumeUserActive
  split
  · exact h
  · split
    · exact h
    · exact h.installWatch _

theorem Announced.powerButtonPress : s.powerButtonPress.Announced := by
  unfold State.powerButtonPress
  split
  · exact h
  · split
    · exact h.maybeCancelAction _
    · exact h

theorem Announced.sessionIsActiveChanged (active : Bool) :
    (s.sessionIsActiveChanged active).Announced := by
  have h₁ : { s with sessionIsActive := active }.Announced := h.congr rfl
  unfold State.sessionIsActiveChanged
  split
  · exact h
  · dsimp only
    split
    · exact h₁.maybeCancelAction _
    · exact h₁

theorem Announced.resumeSuspendAgain (ongoing : Action) (near : Bool) :
    (s.resumeSuspendAgain ongoing near).Announced := by
  unfold State.resumeSuspendAgain
  split
  · exact h.throw (by simp)
  · split
    · exact {
        __ := h
        asleep := fun hin => by simp [EnteredSleep] at hin
        noThrow := h.noThrow }
    · have hset := h.setSuspended
      exact Announced.push (hset.emit (by simp) (by simp) (by simp)) (by simp [Thread.ids]) (by simp)

end

/-! ### The step -/

section

variable (h : s.Announced)
include h

theorem Announced.rest {t : Thread} {rest : List Thread} {i : Nat}
    (htake : Runs.take s.threads i = some (t, rest)) : { s with threads := rest }.Announced where
  __ := h
  thread_lt u hu := h.thread_lt u (Runs.mem_of_take htake hu)
  released hi := ⟨(h.released hi).1, fun c hc => (h.released hi).2 c (Runs.mem_of_take htake hc)⟩

theorem Announced.suspended_of_awaited {i : Nat} {answer : Bool}
    (hok : s.SleepAwaited (.resume i answer)) (ht : s.threads[i]? = some .sleepAction)
    (ha : s.isInAction.any isSuspendAction = true) : s.suspended = true := by
  obtain ⟨hin, hw⟩ := hok ht ha
  exact (h.asleep hin).resolve_right (by simp [hw])

theorem Announced.resumeThread {t : Thread} {rest : List Thread} {i : Nat}
    {answer : Bool} (htake : Runs.take s.threads i = some (t, rest))
    (hok : s.SleepAwaited (.resume i answer)) :
    ({ s with threads := rest }.resumeThread t answer).Announced := by
  have hrest := h.rest htake
  have hids := h.thread_lt _ (Runs.take_mem htake)
  cases t with
  | queued lock action watchEarly forSleep => exact hrest.resumeQueued _ _ _
  | body b pc => exact hrest.resumeBody (hids _ (by simp [Thread.ids])) _ _
  | bodyFinally b =>
      exact Announced.returnAction
        (s := { s with threads := rest, actionStartCancellable := none }) (hrest.congr rfl) _
  | cancelPocket lock reason ongoing => exact hrest.resumeCancel _ _ _
  | cancelFinally lock reason returned =>
      have hfree : { s with threads := rest, cancellingActionLock := none }.Announced :=
        hrest.congr rfl
      simp only [State.resumeThread]
      split
      · exact hfree.settleCancel _ _
      · exact hfree
  | userActive cancelled => exact hrest.resumeUserActive _
  | powerKeyPress => exact hrest.powerButtonPress
  | sleepAction =>
      exact hrest.afterSleepAction (h.suspended_of_awaited hok (Runs.getElem?_of_take htake))
  | suspendAgainPocket ongoing => exact hrest.resumeSuspendAgain _ _
  | suspendAgainCall =>
      simp only [State.resumeThread]
      split
      · exact hrest
      · exact (hrest.inactive false false).congr rfl
  | wakeUpPocket =>
      simp only [State.resumeThread, State.resumeWakeUp]
      split
      · exact hrest
      · split
        · exact hrest
        · exact hrest.congr rfl
  | inhibit c =>
      simp only [State.resumeThread]
      split
      · rename_i hgranted
        -- A request that is answered was not cancelled, so the inhibitor is wanted.
        have hmem := Runs.take_mem htake
        have hcur : s.inhibitCancellable = some c := by simp_all
        exact {
          __ := hrest
          released := fun hi => absurd hcur ((h.released hi).2 c hmem)
          noThrow := hrest.noThrow }
      · exact hrest

/-- **The step lemma.** -/
theorem Announced.step {e : Event} (hok : s.SleepAwaited e)
    (hstep : step s e = some s') : s'.Announced := by
  cases e with
  | doSystemAction action watchEarly =>
      cases hstep
      exact h.doSystemAction _ _ _
  | powerButtonPress =>
      cases hstep
      exact h.powerButtonPress
  | sessionIsActiveChanged active =>
      cases hstep
      exact h.sessionIsActiveChanged _
  | prepareForSleep aboutToSuspend ok =>
      cases hstep
      exact h.prepareForSleep _ _
  | userActive powerKey =>
      obtain ⟨-, rfl⟩ := Option.ite_some_none_eq_some.mp hstep
      exact h.onUserActive _
  | ignoreInputTimeout =>
      obtain ⟨-, hsome⟩ := Option.ite_none_left_eq_some.mp hstep
      cases hsome
      exact h.congr rfl
  | suspendAgainTimeout =>
      obtain ⟨ongoing, -, rfl⟩ := Option.map_eq_some_iff.mp hstep
      exact Announced.push (s := { s with suspendAgainTimeout := none }) (h.congr rfl)
        (by simp [Thread.ids]) (by simp)
  | wakeUpScreen =>
      cases hstep
      split
      · exact h.push (by simp [Thread.ids]) (by simp)
      · exact h
  | notificationTimeout =>
      obtain ⟨-, rfl⟩ := Option.ite_some_none_eq_some.mp hstep
      exact h.congr rfl
  | deferredIdleBlankTimeout =>
      obtain ⟨-, rfl⟩ := Option.ite_some_none_eq_some.mp hstep
      exact (h.doSystemAction _ _ _).congr rfl
  | loginSessionChanged active =>
      cases hstep
      exact Announced.syncInhibitor (s := { s with loginSessionActive := active }) (h.congr rfl) _ _ _
  | envChanged env =>
      cases hstep
      exact h.congr rfl
  | lightboxStopped =>
      obtain ⟨screen, -, rfl⟩ := Option.map_eq_some_iff.mp hstep
      exact h.setScreen _
  | resumeScreen i ok brightness =>
      obtain ⟨screen, -, rfl⟩ := Option.map_eq_some_iff.mp hstep
      exact h.setScreen _
  | resume i answer =>
      obtain ⟨⟨t, rest⟩, htake, hready⟩ := Option.bind_eq_some_iff.mp hstep
      obtain ⟨-, rfl⟩ := Option.ite_some_none_eq_some.mp hready
      exact h.resumeThread htake hok

end

/-! ## The result -/

theorem Announced.inhibitor_release (h : s.Announced) :
    (s.syncInhibitor false true false).inhibitor = false := by
  unfold State.syncInhibitor
  simp only [Bool.and_false, Bool.false_eq_true, ↓reduceIte]
  split
  · rename_i hi
    exact (h.released hi).1
  · rfl

theorem Announced.afterSleepAction_released (h : s.Announced) (hs : s.suspended = true)
    (ha : s.isInAction.any isSuspendAction = true) : s.SleepReleased s.afterSleepAction := by
  refine ⟨hs, ?_, (h.afterSleepAction fun _ => hs).noThrow⟩
  unfold State.afterSleepAction
  split
  · simp_all
  · split
    · simp_all
    · split
      · simp_all
      · exact h.inhibitor_release

/-- **A sleep announced by logind is let through.** In every run in which no
`_prepareForSleep(true)` comes to its end with an action that was woken, or has not called logind
yet, the end of a `_prepareForSleep(true)` with a recorded suspend, hibernate or forced suspend
finds `_suspended` set and releases the inhibitor. -/
theorem sleepReleased_of_reach {s s' : State} {e : Event}
    (hreach : Runs.Reach PowerManager.step SleepAwaited State.init s) (hok : s.SleepAwaited e)
    (hstep : PowerManager.step s e = some s') (hfin : s.FinishesSleep e)
    (ha : s.isInAction.any isSuspendAction = true) : s.SleepReleased s' := by
  have h : s.Announced :=
    hreach.invariant announced_init fun _ _ _ h hok hstep => h.step hok hstep
  cases e with
  | prepareForSleep aboutToSuspend ok =>
      cases aboutToSuspend with
      | false => exact hfin.elim
      | true =>
          obtain ⟨hin, hlock, hs⟩ := hfin
          -- The suspend timer is removed, and nothing else happens before the end.
          have hend : s.prepareForSleep true ok
              = { s with suspendAgainTimeout := none }.afterSleepAction := by
            rcases hin with hin | hin <;> simp [State.prepareForSleep, hin, hlock, hs]
          have hs' : step s (.prepareForSleep true ok) = some (s.prepareForSleep true ok) := rfl
          rw [hs', hend] at hstep
          cases hstep
          have h₁ : { s with suspendAgainTimeout := none }.Announced := h.congr rfl
          have hrel := h₁.afterSleepAction_released hs ha
          exact ⟨hs, hrel.released, hrel.noThrow⟩
  | resume i answer =>
      obtain ⟨⟨t, rest⟩, htake, hready⟩ := Option.bind_eq_some_iff.mp hstep
      obtain ⟨-, rfl⟩ := Option.ite_some_none_eq_some.mp hready
      have ht : t = .sleepAction :=
        Option.some.inj ((Runs.getElem?_of_take htake).symm.trans hfin)
      subst ht
      have hs := h.suspended_of_awaited hok hfin ha
      have hrel := (h.rest htake).afterSleepAction_released hs ha
      exact ⟨hs, hrel.released, hrel.noThrow⟩
  | _ => exact hfin.elim

/-- A forced suspend up to the end of `_prepareForSleep(true)`. -/
def forcedSleep : List Event :=
  [.prepareForSleep true true, .resume 0 true, .lightboxStopped, .resumeScreen 0 true 100,
    .resumeScreen 0 true 100, .resumeScreen 0 true 100, .resume 0 true, .resume 0 true]

theorem sleepReleased_forcedSleep :
    ∃ s s', Runs.run PowerManager.step State.init forcedSleep = some s ∧
      PowerManager.step s (.resume 0 true) = some s' ∧ s.SleepReleased s' :=
  ⟨_, _, rfl, rfl, sleepReleased_of_reach
    (Runs.Reach.of_run forcedSleep (by decide) rfl) (e := .resume 0 true)
    (by decide) rfl rfl rfl⟩

/-- The device wakes up in a pocket, and logind announces another sleep: `_doSystemAction`
returns early because the forced suspend is still recorded, and the internal error is thrown with
the inhibitor held. -/
theorem not_sleepReleased_secondSleep : ∃ s s',
      Runs.run PowerManager.step State.init (forcedSleep ++
        [.resume 0 true, .prepareForSleep false true, .resume 0 true,
          .prepareForSleep true true]) = some s ∧
      s.FinishesSleep (.resume 0 true) ∧ s.isInAction = some .suspendForced ∧
      PowerManager.step s (.resume 0 true) = some s' ∧
      s'.log.head? = some (.error (.notSuspended .suspendForced)) ∧ s'.inhibitor = true ∧
      ¬s.SleepReleased s' :=
  ⟨_, _, rfl, rfl, rfl, rfl, rfl, rfl, fun h => by cases h.suspended⟩

end State

end PowerManager
