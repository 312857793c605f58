import GnomeShellMobile.Runs.Basic
import GnomeShellMobile.ScreenShield.Shield

/-!
# ScreenShield — a lock is not lost

`lock()` does not look for an unlock that is under way. A `deactivate()` that waits for the
messages of the prompt goes on after it, and with `showLater` the slide-up animation is left
running; both end with the shield unlocked. This module says when a lock has none of this to
fear, and that then it stands until a later `deactivate()`.

* `LockSafe` — no `lock()` is called while an unlock is under way that it does not stop.
* `Standing` — the invariant of a lock that stands.
* `LockKept` — what is claimed of a run's states.
-/

namespace ScreenShield.State

variable (s : State)

/-- Whether `lock` will set the shield locked, by the account and by the greeter. -/
def locksWith (showLater : Bool) : Bool :=
  (if showLater || s.unlockMode then s.isGreeter else s.env.sessionIsGreeter) ||
    !s.env.passwordNone

/-- A `lock()` that is not refused opens the unlock dialog if there is none; when it locks,
nothing of an earlier `deactivate()` is waiting, and with `showLater` none slides up; and when it
does not lock, no lock stands. -/
def LockSafe (s : State) : Event → Prop
  | .lock _ showLater _ w =>
      s.env.disableLock = false → s.isModal ∨ w.grabs →
        (s.dialog.isSome ∨ s.env.unlockDialog ∧ w.opens ∨ s.lockScreenState = .hidden) ∧
          if s.locksWith showLater then
            s.waiting = [] ∧ (showLater = true → s.slide ≠ some (.up false))
          else s.held = false
  | _ => True

instance (e : Event) : Decidable (s.LockSafe e) := by
  unfold LockSafe
  split <;> infer_instance

/-- Once `lock()` has set the shield locked, and until a `deactivate()` is called, it is locked,
with its dialog and its grab. -/
def LockKept : Prop := s.held = true → s.isLocked = true ∧ s.dialog.isSome ∧ s.isModal = true

structure Standing : Prop where
  locked : s.held = true → s.isLocked = true
  dialog : s.held = true → s.dialog.isSome
  modal : s.held = true → s.isModal = true
  waiting : s.held = true → s.waiting = []
  slide : s.held = true → s.slide ≠ some (.up false)

variable {s}

/-! ## What leaves a lock alone -/

def view (s : State) := (s.held, s.isLocked, s.dialog, s.isModal, s.waiting, s.slide)

@[simp] theorem lockScreenShown_view : s.lockScreenShown.1.view = s.view := by
  rw [lockScreenShown]
  split <;> rfl

@[simp] theorem pushUnlockMode_view : s.pushUnlockMode.view = s.view := by
  rw [pushUnlockMode]
  split <;> rfl

theorem lockScreenShown_held : s.lockScreenShown.1.held = s.held :=
  congrArg Prod.fst lockScreenShown_view

theorem slideFinished_held (slide : Slide) : (s.slideFinished slide).held = s.held := by
  cases slide with
  | down => exact lockScreenShown_held
  | up greeter => cases greeter <;> rfl

theorem removeTransitions_held : s.removeTransitions.held = s.held := by
  rw [removeTransitions]
  split
  · exact lockScreenShown_held
  · rfl

theorem ease_held (slide : Slide) (animated : Bool) : (s.ease slide animated).held = s.held := by
  rw [ease]
  split
  · exact removeTransitions_held
  · rw [slideFinished_held, removeTransitions_held]

theorem continueDeactivate_held {s' : State} {animated : Bool}
    (h : s.continueDeactivate animated = some s') : s'.held = s.held := by
  unfold continueDeactivate at h
  split at h
  · cases h
  · dsimp only at h
    split at h
    · cases h
      rw [ease_held]
    · cases h
      rw [ease_held]

theorem deactivate_held (animate pending animates : Bool) :
    (s.deactivate animate pending animates).1.held = false := by
  unfold deactivate
  dsimp only
  split
  · rfl
  · split
    · next h => exact (continueDeactivate_held h)
    · rfl

namespace Standing

theorem of_not_held (h : s.held = false) : s.Standing := by
  constructor <;> simp [h]

section

variable (h : s.Standing)
include h

theorem congr {s' : State} (hv : s'.view = s.view) : s'.Standing := by
  simp only [view, Prod.mk.injEq] at hv
  obtain ⟨h1, h2, h3, h4, h5, h6⟩ := hv
  obtain ⟨locked, dialog, modal, waiting, slide⟩ := h
  constructor <;> simp only [h1, h2, h3, h4, h5, h6] <;> assumption

theorem lockKept : s.LockKept :=
  fun hs => ⟨h.locked hs, h.dialog hs, h.modal hs⟩

theorem removeTransitions : s.removeTransitions.Standing := by
  have hnone : { s with slide := none }.Standing := { h with slide := fun _ => by simp }
  rw [State.removeTransitions]
  split
  · exact hnone.congr lockScreenShown_view
  · exact hnone

theorem slideFinished {slide : Slide}
    (hslide : s.held = true → slide ≠ .up false) : (s.slideFinished slide).Standing := by
  cases slide with
  | down => exact h.congr lockScreenShown_view
  | up greeter =>
      cases greeter with
      | true => exact h.congr rfl
      | false =>
          have hs : s.held = false := by
            by_contra hs
            exact hslide (by simpa using hs) rfl
          exact of_not_held ((slideFinished_held _).trans hs)

theorem easeDown (animated : Bool) : (s.ease .down animated).Standing := by
  rw [ease]
  split
  · exact { h.removeTransitions with slide := fun _ => by simp }
  · exact h.removeTransitions.slideFinished fun _ => by simp

theorem showShield (animated : Bool) : (s.showShield animated).Standing := by
  have hpush : s.pushUnlockMode.Standing := h.congr pushUnlockMode_view
  have hshowing : { s.pushUnlockMode with lockScreenState := .showing }.Standing := hpush.congr rfl
  exact hshowing.removeTransitions.easeDown animated

theorem ensureUnlockDialog (w : Answers) :
    (s.ensureUnlockDialog w).1.Standing := by
  rw [State.ensureUnlockDialog]
  split
  · exact h
  · next hdialog =>
      have hs : s.held = false := by
        by_contra hs
        exact hdialog (h.dialog (by simpa using hs))
      split
      · exact of_not_held (deactivate_held _ _ _)
      · split
        · exact of_not_held hs
        · exact of_not_held (deactivate_held _ _ _)

theorem activate (animate showLater : Bool) (now : Nat) (w : Answers) :
    (s.activate animate showLater now w).1.Standing := by
  unfold State.activate
  extract_lets s'
  have hs' : s'.Standing := by
    unfold s'
    split
    · exact h.congr rfl
    · exact h
  have hensure := hs'.ensureUnlockDialog w
  split <;> rename_i s'' heq <;> rw [heq] at hensure
  · exact hensure
  · exact hensure
  · dsimp only
    split
    · exact hensure
    · exact hensure.showShield _

theorem becomeModal (grabs : Bool) : (s.becomeModal grabs).1.Standing := by
  rw [State.becomeModal]
  split
  · exact h
  · next hmodal =>
      have hs : s.held = false := by
        by_contra hs
        exact hmodal (h.modal (by simpa using hs))
      exact of_not_held hs

end

end Standing

/-! ## Locking -/

theorem becomeModal_eq (grabs : Bool) :
    ∃ m, s.becomeModal grabs = ({ s with isModal := m }, m) := by
  rw [becomeModal]
  split
  · next hm => exact ⟨true, by simp [← hm]⟩
  · exact ⟨grabs, rfl⟩

theorem giveUpDialog_of_hidden (h : s.lockScreenState = .hidden) (animates : Bool) :
    s.giveUpDialog animates = ({ s with held := false }, none) := by
  simp [giveUpDialog, deactivate, continueDeactivate, h]

theorem ensureUnlockDialog_cases {w : Answers}
    (h : s.dialog.isSome ∨ s.env.unlockDialog ∧ w.opens ∨ s.lockScreenState = .hidden) :
    s.dialog.isSome ∧ s.ensureUnlockDialog w = (s, some true) ∨
      s.ensureUnlockDialog w = ({ s with dialog := some true }, some true) ∨
      ∃ s', s.ensureUnlockDialog w = (s', none) ∧ s'.held = false := by
  rw [ensureUnlockDialog]
  by_cases hd : s.dialog.isSome
  · exact .inl ⟨hd, if_pos hd⟩
  · rw [if_neg hd]
    right
    by_cases hopen : s.env.unlockDialog ∧ w.opens
    · exact .inl (by simp [hopen.1, hopen.2])
    · have hhidden := (h.resolve_left hd).resolve_left hopen
      right
      split
      · exact ⟨_, giveUpDialog_of_hidden hhidden _, rfl⟩
      · next hmode =>
          rw [if_neg fun ho => hopen ⟨by simpa using hmode, ho⟩]
          exact ⟨_, giveUpDialog_of_hidden (s := { s with dialog := some false }) hhidden _, rfl⟩

/-- The fields that showing the shield leaves alone once the session mode is switched. -/
def shownView (s : State) := (s.held, s.dialog, s.isModal, s.waiting, s.isGreeter, s.env)

theorem lockScreenShown_shownView : s.lockScreenShown.1.shownView = s.shownView := by
  rw [lockScreenShown]
  split <;> rfl

theorem removeTransitions_shownView : s.removeTransitions.shownView = s.shownView := by
  rw [removeTransitions]
  split
  · exact lockScreenShown_shownView
  · rfl

variable (animated : Bool)

theorem easeDown_shownView : (s.ease .down animated).shownView = s.shownView := by
  rw [ease]
  split
  · exact removeTransitions_shownView
  · exact lockScreenShown_shownView.trans removeTransitions_shownView

theorem removeTransitions_slide : s.removeTransitions.slide = none := by
  rw [removeTransitions]
  split
  · rw [lockScreenShown]
    split <;> rfl
  · rfl

theorem easeDown_slide : (s.ease .down animated).slide ≠ some (.up false) := by
  rw [ease]
  split
  · simp
  · have hshown : (s.removeTransitions.slideFinished .down).slide = s.removeTransitions.slide := by
      rw [slideFinished, lockScreenShown]
      split <;> rfl
    rw [hshown, removeTransitions_slide]
    simp

theorem showShield_spec :
    (s.showShield animated).held = s.held ∧ (s.showShield animated).dialog = s.dialog ∧
      (s.showShield animated).isModal = s.isModal ∧
      (s.showShield animated).waiting = s.waiting ∧
      (s.showShield animated).slide ≠ some (.up false) ∧
      (s.showShield animated).setsLocked = s.locksWith false := by
  have hview : (s.showShield animated).shownView = s.pushUnlockMode.shownView :=
    (easeDown_shownView animated).trans removeTransitions_shownView
  simp only [shownView, Prod.mk.injEq] at hview
  obtain ⟨hheld, hdialog, hmodal, hwaiting, hgreeter, henv⟩ := hview
  have hpush : s.pushUnlockMode.held = s.held ∧ s.pushUnlockMode.dialog = s.dialog ∧
    s.pushUnlockMode.isModal = s.isModal ∧
      s.pushUnlockMode.waiting = s.waiting ∧ s.pushUnlockMode.env = s.env ∧
      s.pushUnlockMode.isGreeter = if s.unlockMode then s.isGreeter else s.env.sessionIsGreeter := by
    rw [pushUnlockMode]
    split <;> exact ⟨rfl, rfl, rfl, rfl, rfl, rfl⟩
  obtain ⟨hpheld, hpdialog, hpmodal, hpwaiting, hpenv, hpgreeter⟩ := hpush
  refine ⟨hheld.trans hpheld, hdialog.trans hpdialog, hmodal.trans hpmodal,
    hwaiting.trans hpwaiting, easeDown_slide animated, ?_⟩
  rw [setsLocked, locksWith, hgreeter, henv, hpenv, hpgreeter, Bool.false_or]

theorem activate_of_returned {s' : State} {animate showLater : Bool} {now : Nat} {w : Answers}
    (hopen : s.dialog.isSome ∨ s.env.unlockDialog ∧ w.opens ∨ s.lockScreenState = .hidden)
    (h : s.activate animate showLater now w = (s', true)) :
    s'.held = s.held ∧ s'.dialog.isSome ∧ s'.isModal = s.isModal ∧ s'.waiting = s.waiting ∧
      s'.setsLocked = s.locksWith showLater ∧
      ((showLater = true → s.slide ≠ some (.up false)) → s'.slide ≠ some (.up false)) := by
  unfold activate at h
  extract_lets t at h
  -- Setting the activation time changes nothing that matters here.
  have ht : t.held = s.held ∧ t.dialog = s.dialog ∧ t.env = s.env ∧ t.lockScreenState = s.lockScreenState ∧
      t.isModal = s.isModal ∧ t.waiting = s.waiting ∧ t.slide = s.slide ∧
      t.locksWith showLater = s.locksWith showLater := by
    unfold t
    split <;> exact ⟨rfl, rfl, rfl, rfl, rfl, rfl, rfl, rfl⟩
  obtain ⟨hheld, hdialog, henv, hstate, hmodal, hwaiting, hslide, hlocks⟩ := ht
  rw [← hdialog, ← henv, ← hstate] at hopen
  have hshown {u : State} (hu : u.dialog.isSome) (huview : u.held = t.held ∧
      u.isModal = t.isModal ∧ u.waiting = t.waiting ∧ u.slide = t.slide ∧ u.locksWith showLater =
      t.locksWith showLater)
      (heq : (if showLater then u else u.showShield (animate && w.animates)) = s') :
      s'.held = s.held ∧ s'.dialog.isSome ∧ s'.isModal = s.isModal ∧ s'.waiting = s.waiting ∧
        s'.setsLocked = s.locksWith showLater ∧
        ((showLater = true → s.slide ≠ some (.up false)) → s'.slide ≠ some (.up false)) := by
    obtain ⟨huheld, humodal, huwaiting, huslide, hulocks⟩ := huview
    cases showLater with
    | true =>
        obtain rfl : u = s' := heq
        exact ⟨huheld.trans hheld, hu, humodal.trans hmodal, huwaiting.trans hwaiting, hulocks.trans hlocks,
          fun hup => huslide ▸ hslide ▸ hup rfl⟩
    | false =>
        obtain rfl : u.showShield (animate && w.animates) = s' := heq
        obtain ⟨hsheld, hsdialog, hsmodal, hswaiting, hsslide, hslocks⟩ :=
          showShield_spec (s := u) (animate && w.animates)
        exact ⟨hsheld.trans (huheld.trans hheld), hsdialog ▸ hu,
          hsmodal.trans (humodal.trans hmodal),
          hswaiting.trans (huwaiting.trans hwaiting), hslocks.trans (hulocks.trans hlocks),
          fun _ => hsslide⟩
  rcases ensureUnlockDialog_cases hopen with ⟨hd, heq⟩ | heq | ⟨u, heq, -⟩
  · rw [heq] at h
    exact hshown hd ⟨rfl, rfl, rfl, rfl, rfl⟩ (Prod.mk.inj h).1
  · rw [heq] at h
    exact hshown (u := { t with dialog := some true }) rfl ⟨rfl, rfl, rfl, rfl, rfl⟩
      (Prod.mk.inj h).1
  · rw [heq] at h
    cases (Prod.mk.inj h).2

namespace Standing

theorem lock {animate showLater : Bool} {now : Nat} {w : Answers} (h : s.Standing)
    (hsafe : s.LockSafe (.lock animate showLater now w)) :
    (s.lock animate showLater now w).Standing := by
  unfold State.lock
  split
  · exact h
  · next henabled =>
      have hmodal := h.becomeModal w.grabs
      obtain ⟨m, hm⟩ := becomeModal_eq (s := s) w.grabs
      rw [hm] at hmodal ⊢
      cases m with
      | false => exact hmodal
      | true =>
          dsimp only at hmodal ⊢
          have hgrabs : s.isModal ∨ w.grabs := by
            rw [State.becomeModal] at hm
            split at hm
            · next hs => exact .inl hs
            · exact .inr (Prod.mk.inj hm).2
          obtain ⟨hopen, hlocks⟩ := hsafe (by simpa using henabled) hgrabs
          have hactivate := hmodal.activate animate showLater now w
          split <;> rename_i s' heq <;> rw [heq] at hactivate
          · exact hactivate
          · obtain ⟨hheld, hdialog, hismodal, hwaiting, hsets, hslide⟩ :=
              activate_of_returned (s := { s with isModal := true }) hopen heq
            have hsets : s'.setsLocked = s.locksWith showLater := hsets
            cases hset : s'.setsLocked with
            | true =>
                rw [if_pos (hsets.symm.trans hset)] at hlocks
                exact {
                  locked := fun _ => rfl
                  dialog := fun _ => hdialog
                  modal := fun _ => hismodal
                  waiting := fun _ => hwaiting.trans hlocks.1
                  slide := fun _ => hslide hlocks.2 }
            | false =>
                rw [← hsets, hset, if_neg Bool.false_ne_true] at hlocks
                refine of_not_held ?_
                rw [hheld]
                simpa using hlocks

/-! ## Runs -/

section

variable (h : s.Standing)
include h

theorem showDialog {w : Answers} {s' : State} (heq : s.showDialog w = some s') :
    s'.Standing := by
  have hmodal := h.becomeModal w.grabs
  rw [State.showDialog] at heq
  split at heq
  · cases heq
  · next t ht =>
      rw [ht] at hmodal
      cases heq
      refine ensureUnlockDialog ?_ w
      exact { hmodal with locked := fun _ => rfl }

theorem activateDialog (pending : Bool) (w : Answers) :
    (s.activateDialog pending w).Standing := by
  rw [State.activateDialog]
  split
  · exact h.ensureUnlockDialog w
  · exact of_not_held (deactivate_held _ _ _)

theorem noMoreMessages {i : Nat} {animate : Bool}
    (hi : s.waiting[i]? = some animate) (animated : Bool) :
    (({ s with waiting := s.waiting.eraseIdx i }.continueDeactivate animated).getD
      { s with waiting := s.waiting.eraseIdx i }).Standing := by
  have hs : s.held = false := by
    by_contra hs
    rw [h.waiting (by simpa using hs)] at hi
    cases hi
  refine of_not_held ?_
  cases hc : { s with waiting := s.waiting.eraseIdx i }.continueDeactivate animated with
  | none => exact hs
  | some s' => exact (continueDeactivate_held hc).trans hs

theorem step {e : Event} {s' : State} (hsafe : s.LockSafe e)
    (hstep : s.step e = some s') : s'.Standing := by
  cases e with
  | lock animate showLater now w =>
      cases hstep
      exact h.lock hsafe
  | activate animate showLater now w =>
      cases hstep
      exact h.activate animate showLater now w
  | showLater =>
      cases hstep
      exact h.congr (lockScreenShown_view.trans pushUnlockMode_view)
  | deactivate animate pending w =>
      cases hstep
      exact of_not_held (deactivate_held _ _ _)
  | becomeModal grabs =>
      cases hstep
      exact h.becomeModal grabs
  | showDialog w => exact h.showDialog hstep
  | activateDialog pending w =>
      cases hstep
      exact h.activateDialog pending w
  | noMoreMessages i w =>
      obtain ⟨animate, hi, heq⟩ := Option.map_eq_some_iff.mp hstep
      cases heq
      exact h.noMoreMessages hi _
  | slideFinished =>
      obtain ⟨slide, hslide, heq⟩ := Option.map_eq_some_iff.mp hstep
      cases heq
      have hnone : { s with slide := none }.Standing := { h with slide := fun _ => by simp }
      exact hnone.slideFinished fun hs heq => h.slide hs (hslide.trans (congrArg some heq))
  | slideInterrupted =>
      obtain ⟨-, heq⟩ := Option.ite_none_right_eq_some.mp hstep
      cases heq
      exact h.removeTransitions
  | changeSettings disableLock passwordNone =>
      cases hstep
      exact h.congr rfl

end

end Standing

theorem standing_init (env : Env) : (State.init env).Standing := Standing.of_not_held rfl

/-- In every run in which no `lock()` is called while an unlock is under way that it does not
stop, the shield is locked, with its dialog and its grab, from every `lock()` that locks it to the
next `deactivate()`. -/
theorem lockKept_of_reach {env : Env} {s : State}
    (hreach : Runs.Reach State.step LockSafe (State.init env) s) : s.LockKept :=
  (hreach.invariant (standing_init env) fun _ _ _ h hok hstep => h.step hok hstep).lockKept

def lockedDuringSlideUp (showLater : Bool) : List Event :=
  [.lock true false 1 {}, .slideFinished, .deactivate true false {}, .lock false showLater 2 {}]

theorem lockKept_lockedDuringSlideUp :
    ∃ s, Runs.run State.step (State.init {}) (lockedDuringSlideUp false) = some s ∧
      s.LockKept :=
  ⟨_, rfl, @lockKept_of_reach {} _ (.of_run (lockedDuringSlideUp false) (by decide) rfl)⟩

/-- With `showLater` the second lock is lost when the animation ends. -/
theorem not_lockKept_showLaterDuringSlideUp :
    ¬ ∀ s, Runs.Reachable State.step (State.init {}) s → s.LockKept := by
  intro h
  have hrun : ∃ s, Runs.run State.step (State.init {})
        (lockedDuringSlideUp true ++ [.slideFinished]) = some s ∧
      s.held = true ∧ s.isLocked = false := by
    decide
  obtain ⟨s, hrun, hheld, hlocked⟩ := hrun
  have := (h s (.of_run _ hrun) hheld).1
  rw [hlocked] at this
  cases this

end ScreenShield.State
