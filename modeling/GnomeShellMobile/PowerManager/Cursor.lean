import GnomeShellMobile.PowerManager.ScreenCalls
import GnomeShellMobile.PowerManager.ScreenState

/-!
# PowerManager — the cursor

The power manager hides the cursor when it dims the screen or fades it out, and shows it again when
it fades the screen in or ends a dim. The tracker counts those calls. Only `_fadeOut` asks
`_cursorInvisible` whether the cursor is hidden already; the others call it whatever the flag says.

* **`Counted`**: the count is 1 with the flag set and 0 without; **`counted_call_iff`**: the calls of
  the screen functions that keep it so.
* **`Shown`**: the cursor is visible, or a `_turnOnScreen` waits and will show it.
* **`cursorSettled_run`**: whole runs.
-/

namespace PowerManager

namespace Screen

variable (s : Screen)

/-- `_fadeIn` and `_turnOnScreen` return at once. -/
def guarded : Bool := s.fadeInTimeout || s.fadingIn

/-- The cursor is inhibited once while `_cursorInvisible` is set, and not inhibited otherwise. -/
def Counted : Prop := s.cursorInhibits = if s.cursorInvisible then 1 else 0
deriving Decidable

/-- The cursor is visible, or a `_turnOnScreen` that waits for the sensor daemon will show it. -/
def Shown : Prop := s.cursorInvisible = false ∨ .uninhibit ∈ s.work
deriving Decidable

def Paired : Option Call → Prop
  | some .turnOn =>
      s.guarded = false → s.adaptiveBacklightInhibited = false → s.cursorInvisible = true
  | some .dim => s.cursorInvisible = false
  | some .undim => s.cursorInvisible = true
  | some (.turnOff _) | none => True

instance (c : Option Call) : Decidable (s.Paired c) := by
  unfold Paired
  split <;> infer_instance

/-- The rest of a `_turnOnScreen` finds the cursor hidden, unless its `_fadeIn` returns at once. -/
def PairedWork : ScreenWork → Prop
  | .uninhibit => s.guarded = false → s.cursorInvisible = true
  | _ => True

instance (w : ScreenWork) : Decidable (s.PairedWork w) := by
  unfold PairedWork
  split <;> infer_instance

def Shows : Option Call → Prop
  | none => s.Shown
  | some (.turnOff _) => s.Shown ∧ (s.fadingOut = true ∨ .uninhibit ∈ s.work)
  | some .turnOn => s.guarded = true → s.Shown
  | some .dim => .uninhibit ∈ s.work
  | some .undim => True

instance (c : Option Call) : Decidable (s.Shows c) := by
  unfold Shows
  split <;> infer_instance

variable {s : Screen}

/-! ## The count -/

theorem turnOffLed_cursor (brightness : Nat) :
    (s.turnOffLed brightness).cursorInvisible = s.cursorInvisible ∧
      (s.turnOffLed brightness).cursorInhibits = s.cursorInhibits ∧
      (s.turnOffLed brightness).work = s.work := by
  unfold Screen.turnOffLed
  split <;> exact ⟨rfl, rfl, rfl⟩

theorem counted_congr {s' : Screen} (hc : s'.cursorInvisible = s.cursorInvisible)
    (hn : s'.cursorInhibits = s.cursorInhibits) : s'.Counted ↔ s.Counted := by
  unfold Counted
  rw [hc, hn]

section

variable (h : s.Counted)
include h

theorem Counted.fadeIn_iff :
    s.fadeIn.Counted ↔ (s.guarded = false → s.cursorInvisible = true) := by
  unfold Screen.fadeIn
  split
  · rename_i hg
    refine iff_of_true h fun hfree => ?_
    rw [guarded, hg] at hfree
    cases hfree
  · rename_i hg
    have hfree : s.guarded = false := by simpa [guarded] using hg
    rw [Counted] at h
    rw [Counted, easeLightbox_eq]
    cases hc : s.cursorInvisible <;> simp [h, hc, hfree]

theorem Counted.turnOnRest_iff :
    s.turnOnRest.Counted ↔ (s.guarded = false → s.cursorInvisible = true) := by
  unfold Screen.turnOnRest
  extract_lets s₁
  have hsame : s₁.cursorInvisible = s.cursorInvisible ∧ s₁.cursorInhibits = s.cursorInhibits ∧
      s₁.guarded = s.guarded := by
    unfold s₁
    split <;> exact ⟨rfl, rfl, rfl⟩
  obtain ⟨hc, hn, hg⟩ := hsame
  have h₁ : { s₁ with powerSaveMode := 0 }.Counted := (counted_congr hc hn).mpr h
  rw [h₁.fadeIn_iff]
  show (s₁.guarded = false → s₁.cursorInvisible = true) ↔ _
  rw [hg, hc]

/-- **Which calls keep the count.** -/
theorem counted_call_iff (c : Option Call) : (s.call c).Counted ↔ s.Paired c := by
  have hn : s.cursorInhibits = if s.cursorInvisible then 1 else 0 := h
  match c with
  | none => exact iff_of_true h trivial
  | some (.turnOff owner) =>
    refine iff_of_true ?_ trivial
    show (s.turnOffScreen owner).Counted
    unfold Screen.turnOffScreen
    dsimp only
    split
    · exact h
    · -- `_fadeOut` asks the flag
      rw [Counted, Screen.fadeOut, easeLightbox_eq, removeAllTransitions_eq]
      cases hc : s.cursorInvisible <;> simp [hn, hc]
  | some .dim =>
    show s.dim.Counted ↔ s.cursorInvisible = false
    rw [Counted, Screen.dim, easeLightbox_eq]
    cases hc : s.cursorInvisible <;> simp [hn, hc]
  | some .undim =>
    show s.undim.Counted ↔ s.cursorInvisible = true
    rw [Counted, Screen.undim, easeLightbox_eq]
    cases hc : s.cursorInvisible <;> simp [hn, hc]
  | some .turnOn =>
    show s.turnOnScreen.Counted ↔ (_ → _ → _)
    unfold Screen.turnOnScreen
    extract_lets s₁ s₂
    have hsame : s₂.cursorInvisible = s.cursorInvisible ∧ s₂.cursorInhibits = s.cursorInhibits ∧
        s₂.guarded = s.guarded ∧ s₂.adaptiveBacklightInhibited = s.adaptiveBacklightInhibited := by
      simp [s₂, s₁, removeAllTransitions_eq, guarded]
    obtain ⟨hc, hi, hg, ha⟩ := hsame
    have h₂ : s₂.Counted := (counted_congr hc hi).mpr h
    split
    · rename_i hguard
      refine iff_of_true h fun hfree => ?_
      have hguard' : s.guarded = true := hguard
      rw [hguard'] at hfree
      cases hfree
    · split
      · rename_i hheld
        refine iff_of_true h₂ fun _ hfree => ?_
        rw [ha, hfree] at hheld
        cases hheld
      · rename_i hheld
        have hfree : s.adaptiveBacklightInhibited = false := by
          rw [← ha]
          simpa using hheld
        rw [h₂.turnOnRest_iff, hg, hc]
        exact ⟨fun hp hgf _ => hp hgf, fun hp hgf => hp hgf hfree⟩

theorem counted_resumeWork_iff {s' : Screen} {i brightness : Nat} {ok : Bool}
    (hresume : s.resumeWork i ok brightness = some s') :
    s'.Counted ↔ ∀ w ∈ s.work[i]?, s.PairedWork w := by
  obtain ⟨⟨w, rest⟩, htake, rfl⟩ := Option.map_eq_some_iff.mp hresume
  rw [Runs.getElem?_of_take htake]
  simp only [Option.mem_def, Option.some.injEq, forall_eq']
  have hrest : { s with work := rest }.Counted := h
  cases w with
  | fadeOutSettled owner finished => exact iff_of_true h trivial
  | fadeOutReturned owner finished =>
    refine iff_of_true ?_ trivial
    simp only [Screen.resume]
    split
    · split
      · exact (counted_congr (turnOffLed_cursor _).1 (turnOffLed_cursor _).2.1).mpr h
      · exact h
    · exact h
  | inhibit owner =>
    refine iff_of_true ?_ trivial
    simp only [Screen.resume]
    split <;> exact (counted_congr (turnOffLed_cursor _).1 (turnOffLed_cursor _).2.1).mpr h
  | uninhibit =>
    simp only [Screen.resume]
    split
    · exact Counted.turnOnRest_iff (s := { s with
        work := rest, adaptiveInhibits := s.adaptiveInhibits - 1 }) h
    · exact Counted.turnOnRest_iff (s := { s with
        work := rest, adaptiveBacklightInhibited := true }) h
  | fadeInSettled => exact iff_of_true h trivial

theorem Counted.lightboxStopped {s' : Screen}
    (hstop : s.lightboxStopped = some s') : s'.Counted := by
  unfold Screen.lightboxStopped at hstop
  split at hstop <;> cases hstop <;> exact h

end

/-! ## Showing the cursor -/

theorem mem_work_removeAllTransitions (h : .uninhibit ∈ s.work) :
    .uninhibit ∈ s.removeAllTransitions.work := by
  rw [removeAllTransitions_eq]
  exact List.mem_append_right _ h

theorem mem_work_easeLightbox (f : Fade) (h : .uninhibit ∈ s.work) :
    .uninhibit ∈ (s.easeLightbox f).work := by
  rw [easeLightbox_eq]
  exact List.mem_append_right _ h

theorem shown_fadeIn (h : s.guarded = true → s.Shown) : s.fadeIn.Shown := by
  unfold Screen.fadeIn
  split
  · rename_i hg
    exact h hg
  · left
    rw [easeLightbox_eq]

theorem shown_turnOnRest (h : s.guarded = true → s.Shown) : s.turnOnRest.Shown := by
  unfold Screen.turnOnRest
  extract_lets s₁
  apply shown_fadeIn
  unfold s₁
  split <;> exact h

theorem shown_call {c : Option Call} (h : s.Shows c) : (s.call c).Shown := by
  match c with
  | none => exact h
  | some (.turnOff owner) =>
    obtain ⟨hshown, hlater⟩ := h
    show (s.turnOffScreen owner).Shown
    unfold Screen.turnOffScreen
    dsimp only
    split
    · exact hshown
    · rename_i hstarts
      right
      exact mem_work_easeLightbox _ (mem_work_removeAllTransitions (hlater.resolve_left hstarts))
  | some .turnOn =>
    show s.turnOnScreen.Shown
    unfold Screen.turnOnScreen
    extract_lets s₁ s₂
    split
    · rename_i hg
      exact h hg
    · rename_i hg
      split
      · exact .inr List.mem_cons_self
      · refine shown_turnOnRest fun hguard => absurd ?_ hg
        simpa [s₂, removeAllTransitions_eq, guarded] using hguard
  | some .dim => exact .inr (mem_work_easeLightbox _ h)
  | some .undim =>
    left
    show s.undim.cursorInvisible = false
    rw [Screen.undim, easeLightbox_eq]

theorem Shown.lightboxStopped (h : s.Shown) {s' : Screen} (hstop : s.lightboxStopped = some s') :
    s'.Shown := by
  unfold Screen.lightboxStopped at hstop
  split at hstop
  · cases hstop
    exact h.imp_right (List.mem_cons_of_mem _)
  · cases hstop
    exact h.imp_right (List.mem_cons_of_mem _)
  · cases hstop
    exact h
  · cases hstop
    exact h
  · cases hstop

theorem Shown.resumeWork (h : s.Shown) {s' : Screen} {i brightness : Nat} {ok : Bool}
    (hresume : s.resumeWork i ok brightness = some s')
    (hfree : .uninhibit ∈ s.work[i]? → s.guarded = true → s.cursorInvisible = false) :
    s'.Shown := by
  obtain ⟨⟨w, rest⟩, htake, rfl⟩ := Option.map_eq_some_iff.mp hresume
  rw [Runs.getElem?_of_take htake] at hfree
  -- what waits for the sensor daemon goes on waiting
  have hwaits : w ≠ .uninhibit → s.cursorInvisible = false ∨ .uninhibit ∈ rest := fun hne =>
    h.imp_right fun hmem => (Runs.mem_cases_of_take htake hmem).resolve_left (Ne.symm hne)
  have hled : ∀ {s₁ : Screen}, s₁.cursorInvisible = s.cursorInvisible → s₁.work = rest →
      w ≠ .uninhibit → (s₁.turnOffLed brightness).Shown := by
    intro s₁ hc hw hne
    obtain ⟨hc', -, hw'⟩ := turnOffLed_cursor (s := s₁) brightness
    rw [Shown, hc', hw', hc, hw]
    exact hwaits hne
  cases w with
  | fadeOutSettled owner finished =>
    exact (hwaits (by simp)).imp_right (List.mem_cons_of_mem _)
  | fadeOutReturned owner finished =>
    simp only [Screen.resume]
    split
    · split
      · exact hled rfl rfl (by simp)
      · exact (hwaits (by simp)).imp_right (List.mem_cons_of_mem _)
    · exact hwaits (by simp)
  | inhibit owner =>
    simp only [Screen.resume]
    split <;> exact hled rfl rfl (by simp)
  | uninhibit =>
    simp only [Screen.resume]
    split <;> exact shown_turnOnRest fun hg => .inl (hfree rfl hg)
  | fadeInSettled => exact hwaits (by simp)

end Screen

namespace State

variable (s : State)

def resumedWork : Event → Option ScreenWork
  | .resumeScreen i _ _ => s.screen.work[i]?
  | _ => none

def CursorPaired (e : Event) : Prop :=
  s.screen.Paired (s.eventTurn e).call ∧ ∀ w ∈ s.resumedWork e, s.screen.PairedWork w
deriving Decidable

def CursorReturns (e : Event) : Prop :=
  ((s.eventTurn e).action = none → s.screen.Shows (s.eventTurn e).call) ∧
    (.uninhibit ∈ s.resumedWork e → s.isInAction = none → s.screen.guarded = true →
      s.screen.cursorInvisible = false)
deriving Decidable

structure CursorSettled : Prop where
  counted : s.screen.Counted
  visible : s.Quiescent → s.isInAction = none → s.screen.cursorInhibits = 0

variable {s s' : State} {e : Event}

/-- **The step lemma of the count.** -/
theorem counted_step_iff (h : s.screen.Counted) (hstep : PowerManager.step s e = some s') :
    s'.screen.Counted ↔ s.CursorPaired e := by
  have hturn := step_turn hstep
  have hcall : ∀ {c : Option Screen.Call}, s'.screen = s.screen.call c → s.resumedWork e = none →
      (s.eventTurn e).call = c → (s'.screen.Counted ↔ s.CursorPaired e) := by
    intro c hs hw hc
    rw [CursorPaired, hs, hw, hc, Screen.counted_call_iff h]
    exact ⟨fun hp => ⟨hp, nofun⟩, And.left⟩
  cases e with
  | lightboxStopped =>
    refine iff_of_true (h.lightboxStopped hturn.1) ⟨trivial, ?_⟩
    exact fun w hw => nomatch hw
  | resumeScreen i ok brightness =>
    rw [Screen.counted_resumeWork_iff h hturn.1]
    exact ⟨fun hw => ⟨trivial, hw⟩, And.right⟩
  | doSystemAction _ _ | powerButtonPress | sessionIsActiveChanged _ | prepareForSleep _ _
  | userActive _ | ignoreInputTimeout | suspendAgainTimeout | wakeUpScreen | notificationTimeout
  | deferredIdleBlankTimeout | loginSessionChanged _ | envChanged _ | resume _ _ =>
    exact hcall hturn.1 rfl rfl

/-- **The step lemma of the visible cursor.** -/
theorem shown_step (h : s.isInAction = none → s.screen.Shown) (hreturns : s.CursorReturns e)
    (hstep : PowerManager.step s e = some s') (hnone : s'.isInAction = none) : s'.screen.Shown := by
  have hturn := step_turn hstep
  cases e with
  | lightboxStopped => exact (h (hturn.2 ▸ hnone)).lightboxStopped hturn.1
  | resumeScreen i ok brightness =>
    have hidle : s.isInAction = none := hturn.2 ▸ hnone
    exact (h hidle).resumeWork hturn.1 fun hw => hreturns.2 hw hidle
  | doSystemAction _ _ | powerButtonPress | sessionIsActiveChanged _ | prepareForSleep _ _
  | userActive _ | ignoreInputTimeout | suspendAgainTimeout | wakeUpScreen | notificationTimeout
  | deferredIdleBlankTimeout | loginSessionChanged _ | envChanged _ | resume _ _ =>
    rw [hturn.1]
    exact Screen.shown_call (hreturns.1 (hturn.2 ▸ hnone))

theorem cursorSettled_of_shown (hcounted : s.screen.Counted)
    (hshown : s.isInAction = none → s.screen.Shown) : s.CursorSettled := by
  refine ⟨hcounted, fun hquiet hnone => ?_⟩
  have hvisible : s.screen.cursorInvisible = false := by
    refine (hshown hnone).resolve_right ?_
    rw [hquiet.work]
    exact List.not_mem_nil
  rw [hcounted, hvisible]
  rfl

/-- **The cursor over whole runs.** The count agrees with `_cursorInvisible` in every state of a run if
and only if each step meets `CursorPaired`. If each meets `CursorReturns` as well, the count is also 0
in every state in which nothing is pending and no action is recorded. -/
theorem cursorSettled_run {es : List Event} (hrun : Runs.run PowerManager.step State.init es = some s) :
    (Runs.Always PowerManager.step (fun u => u.screen.Counted) State.init es ↔
      Runs.Allowed PowerManager.step CursorPaired State.init es) ∧
    (Runs.Allowed PowerManager.step (fun u e => u.CursorPaired e ∧ u.CursorReturns e) State.init es →
      Runs.Always PowerManager.step CursorSettled State.init es) := by
  refine ⟨?_, ?_⟩
  · refine Runs.always_iff_allowed rfl (fun u e v h hstep => ?_) hrun
    exact counted_step_iff h hstep
  · refine Runs.Allowed.always
      (I := fun u => u.screen.Counted ∧ (u.isInAction = none → u.screen.Shown)) ?_ ?_ ?_
    · exact ⟨rfl, fun _ => .inl rfl⟩
    · exact fun u hu => cursorSettled_of_shown hu.1 hu.2
    · intro u e v hu hok hstep
      exact ⟨(counted_step_iff hu.1 hstep).mpr hok.1, shown_step hu.2 hok.2 hstep⟩

/-- The blank that completes and is ended by the power button. -/
theorem cursorSettled_run_blankAndBack :
    Runs.Always PowerManager.step CursorSettled State.init blankAndBack := by
  obtain ⟨s, hrun⟩ : ∃ s, Runs.run PowerManager.step State.init blankAndBack = some s := ⟨_, rfl⟩
  exact (cursorSettled_run hrun).2 (by decide)

def wokenAndBack : List Event :=
  [.doSystemAction .blank false, .lightboxStopped, .resumeScreen 0 true 100,
    .resumeScreen 0 true 100, .resumeScreen 0 true 100, .resume 0 true, .resume 0 true,
    .resume 0 true, .wakeUpScreen, .resume 0 false, .resumeScreen 0 true 100, .lightboxStopped,
    .resumeScreen 0 true 100, .powerButtonPress, .resume 0 true, .lightboxStopped,
    .resumeScreen 0 true 100]

/-- Both turn the screen on, and each shows the cursor: the tracker gets one call too many. -/
theorem not_cursorSettled_wokenAndBack :
    ∃ s, Runs.run PowerManager.step State.init wokenAndBack = some s ∧ s.Quiescent ∧
      s.isInAction = none ∧ s.screen.cursorInhibits = -1 ∧ ¬s.CursorSettled := by
  refine ⟨_, rfl, ⟨rfl, rfl, rfl, rfl, rfl, rfl, rfl⟩, rfl, rfl, fun h => ?_⟩
  have hcount := h.counted
  revert hcount
  decide

end State

end PowerManager
