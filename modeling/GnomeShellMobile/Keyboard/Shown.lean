import GnomeShellMobile.Keyboard.Visibility

/-!
# Keyboard — when it is shown

* `Hidden`, `Shown`, `Hiding`: the keyboard as it should be, and `Sound`, one of the three.
* `Undisturbed`: a step that does not get in the way of the animation that hides the keyboard.
* `Sound.step`, `run_consistent`: a run of such steps keeps the counter, and when nothing is pending
  the flags, the box and the completion agree.
-/

namespace Keyboard

open State

variable {s s' : State}

/-! ## What is claimed of a state -/

def State.Settled (s : State) : Prop := s.animation = [] ∧ s.gestureInProgress = false

/-- The counter is one while the keyboard is visible or is being hidden. When nothing is pending the
box is shown if the keyboard is visible, which it is if that was requested, and so is the
completion. -/
structure Consistent (s : State) : Prop where
  unredirect : s.unredirect =
    if s.keyboardVisible ∨ .animateHideComplete ∈ s.animation then 1 else 0
  settled : s.Settled → s.box = s.keyboardVisible ∧ s.keyboardVisible = s.keyboardRequested ∧
    s.oskCompletion.getD false = s.keyboardVisible

/-! ## Phases -/

variable (s)

structure Hidden : Prop where
  visible : s.keyboardVisible = false
  requested : s.keyboardRequested = false
  unredirect : s.unredirect = 0
  oskCompletion : s.oskCompletion.getD false = false
  panEnabled : s.panEnabled = false
  panning : s.panning = false
  animation : s.animation = []
  box : s.box = true → s.gestureInProgress = true

structure Shown : Prop where
  visible : s.keyboardVisible = true
  requested : s.keyboardRequested = true
  unredirect : s.unredirect = 1
  oskCompletion : s.oskCompletion = some true
  animation : s.animation = [] ∨ s.animation = [.animateShowComplete] ∨ s.animation = [.close] ∨
    s.animation = [.none]
  panning : s.panning = true → s.animation ≠ [.close]
  box : s.box = true

structure Hiding : Prop where
  visible : s.keyboardVisible = false
  requested : s.keyboardRequested = false
  unredirect : s.unredirect = 1
  oskCompletion : s.oskCompletion = some false
  panEnabled : s.panEnabled = false
  panning : s.panning = false
  animation : s.animation = [.animateHideComplete]

def Sound : Prop := Hidden s ∨ Shown s ∨ Hiding s

variable {s}

theorem Hidden.new (wayland : Bool) : Hidden (State.new wayland) := by
  constructor <;> simp [State.new]

theorem Sound.consistent (h : Sound s) : Consistent s := by
  obtain h | h | h := h
  · refine ⟨?_, fun hsettled => ⟨?_, ?_, ?_⟩⟩
    · simp [h.unredirect, h.visible, h.animation]
    · cases hbox : s.box with
      | false => exact h.visible.symm
      | true =>
        have hgesture := h.box hbox
        rw [hsettled.2] at hgesture
        cases hgesture
    · rw [h.visible, h.requested]
    · rw [h.visible, h.oskCompletion]
  · refine ⟨?_, fun _ => ⟨?_, ?_, ?_⟩⟩
    · simp [h.unredirect, h.visible]
    · rw [h.box, h.visible]
    · rw [h.visible, h.requested]
    · rw [h.visible, h.oskCompletion, Option.getD_some]
  · refine ⟨?_, fun hsettled => ?_⟩
    · simp [h.unredirect, h.animation]
    · have hnone := hsettled.1
      rw [h.animation] at hnone
      cases hnone

/-! ## What the functions do -/

theorem removeTransition_eq (h : .close ∉ s.animation) :
    s.removeTransition = { s with animation := [] } := if_neg h

theorem ease_eq (h : .close ∉ s.animation) (callback : Callback) :
    s.ease callback = s.restart callback := by
  rw [ease, removeTransition_eq h]
  rfl

theorem Shown.closeWith_restart (h : Shown s) (hpanning : s.panning = false) (animation : List Callback) :
    Hiding (State.closeWith restart { s with animation := animation }) := by
  have hclose : State.closeWith restart { s with animation := animation } =
      { s with
        showIdle := false
        keyboardRequested := false
        oskCompletion := some false
        animation := [.animateHideComplete]
        keyboardVisible := false
        panEnabled := false } := by
    simp [closeWith, h.visible, animateHideWith, restart, disablePan, hpanning]
  rw [hclose]
  exact ⟨rfl, rfl, h.unredirect, rfl, rfl, hpanning, rfl⟩

theorem Shown.close (h : Shown s) (hpanning : s.panning = false) (hanimation : .close ∉ s.animation) :
    Hiding s.close := by
  have hclose : s.close = State.closeWith restart { s with animation := s.animation } := by
    simp [State.close, closeWith, h.visible, animateHideWith, disablePan, hpanning, ease, restart,
      removeTransition, hanimation]
  rw [hclose]
  exact h.closeWith_restart hpanning s.animation

theorem Shown.removeTransition (h : Shown s) : Shown s.removeTransition ∨ Hiding s.removeTransition := by
  by_cases hclose : .close ∈ s.animation
  · have hanimation : s.animation = [.close] := by
      obtain h' | h' | h' | h' := h.animation
      all_goals simp [h'] at hclose ⊢
    have hpanning : s.panning = false := by
      cases hpanning : s.panning with
      | false => rfl
      | true => exact absurd hanimation (h.panning hpanning)
    rw [State.removeTransition, if_pos hclose]
    exact .inr (h.closeWith_restart hpanning [])
  · rw [removeTransition_eq hclose]
    exact .inl ⟨h.visible, h.requested, h.unredirect, h.oskCompletion, .inl rfl, by simp, h.box⟩

theorem close_eq (h : s.keyboardVisible = false) :
    s.close = { s with showIdle := false, keyboardRequested := false } := by
  simp [State.close, closeWith, h]

theorem Hidden.close (h : Hidden s) : Hidden s.close := by
  rw [close_eq h.visible]
  exact ⟨h.visible, rfl, h.unredirect, h.oskCompletion, h.panEnabled, h.panning, h.animation, h.box⟩

theorem Hiding.close (h : Hiding s) : Hiding s.close := by
  rw [close_eq h.visible]
  exact ⟨h.visible, rfl, h.unredirect, h.oskCompletion, h.panEnabled, h.panning, h.animation⟩

theorem Hidden.open (h : Hidden s) : Shown s.open := by
  have hopen : s.open =
      { s with
        showIdle := false
        keyboardRequested := true
        oskCompletion := some true
        unredirect := s.unredirect + 1
        box := true
        keyboardVisible := true
        animation := [.animateShowComplete]
        panEnabled := true } := by
    simp [State.open, h.visible, animateShow, disableUnredirect, ease, State.removeTransition, h.animation]
  rw [hopen]
  refine ⟨rfl, rfl, ?_, rfl, .inr (.inl rfl), by simp, rfl⟩
  change s.unredirect + 1 = 1
  rw [h.unredirect]
  rfl

theorem Shown.open (h : Shown s) : Shown s.open := by
  have hopen : s.open = { s with showIdle := false, keyboardRequested := true } := by
    simp [State.open, h.visible]
  rw [hopen]
  exact ⟨h.visible, rfl, h.unredirect, h.oskCompletion, h.animation, h.panning, h.box⟩

/-! ## The condition on the steps -/

variable (s)

/-- What `open` and `close` and what they animate are prepared for. -/
def State.MayOpen : Prop := .animateHideComplete ∉ s.animation
deriving Decidable

def State.MayClose : Prop :=
  s.keyboardVisible = true → .close ∉ s.animation ∧ s.panning = false
deriving Decidable

/-- A step that does not get in the way: while the keyboard is being hidden nothing opens it, drags
it or interrupts the animation, an edge drag is cancelled only then, and nothing closes it during a
swipe or while it slides out, nor does a swipe begin then. -/
def Undisturbed : Event → Prop
  | .open => s.MayOpen
  | .close => s.MayClose
  | .panelState .off => s.MayClose
  | .panelState .on => s.MayOpen
  | .panelState .toggle => if s.keyboardVisible then s.MayClose else s.MayOpen
  | .keyFocus extendedKeys text =>
    extendedKeys = false → s.focusInExtendedKeys = false → text = false → s.MayClose
  | .idle => s.MayOpen
  | .gestureProgress => s.MayOpen
  | .gestureActivate => s.MayOpen
  | .gestureCancel => s.gestureInProgress = true → .animateHideComplete ∈ s.animation
  | .panBegin => .close ∉ s.animation
  | .interrupt => s.MayOpen
  | _ => True

instance : DecidablePred (Undisturbed s) := fun e => by
  unfold Undisturbed
  split <;> infer_instance

variable {s}

theorem Hiding.not_mayOpen (h : Hiding s) : ¬ s.MayOpen := by
  simp [MayOpen, h.animation]

namespace Sound

section

variable (h : Sound s)
include h

theorem «open» (hopen : s.MayOpen) : Sound s.open := by
  obtain h | h | h := h
  · exact .inr (.inl h.open)
  · exact .inr (.inl h.open)
  · exact absurd hopen h.not_mayOpen

theorem close (hclose : s.MayClose) : Sound s.close := by
  obtain h | h | h := h
  · exact .inl h.close
  · obtain ⟨hanimation, hpanning⟩ := hclose h.visible
    exact .inr (.inr (h.close hpanning hanimation))
  · exact .inr (.inr h.close)

theorem removeTransition (hopen : s.MayOpen) : Sound s.removeTransition := by
  obtain h | h | h := h
  · rw [removeTransition_eq (by simp [h.animation])]
    exact .inl ⟨h.visible, h.requested, h.unredirect, h.oskCompletion, h.panEnabled, h.panning, rfl, h.box⟩
  · exact .inr h.removeTransition
  · exact absurd hopen h.not_mayOpen

theorem touch (extendedKeys idle : Bool) :
    Sound { s with focusInExtendedKeys := extendedKeys, showIdle := idle } := by
  obtain h | h | h := h
  · exact .inl ⟨h.visible, h.requested, h.unredirect, h.oskCompletion, h.panEnabled, h.panning,
      h.animation, h.box⟩
  · exact .inr (.inl ⟨h.visible, h.requested, h.unredirect, h.oskCompletion, h.animation, h.panning,
      h.box⟩)
  · exact .inr (.inr ⟨h.visible, h.requested, h.unredirect, h.oskCompletion, h.panEnabled, h.panning,
      h.animation⟩)

theorem keyFocusChanged {extendedKeys text : Bool}
    (hundisturbed : Undisturbed s (.keyFocus extendedKeys text)) :
    Sound (s.keyFocusChanged extendedKeys text) := by
  have h' : Sound { s with focusInExtendedKeys := extendedKeys } := h.touch extendedKeys s.showIdle
  rw [State.keyFocusChanged]
  dsimp only
  split
  · exact h'
  next hignored =>
    obtain ⟨hextended, hfocus⟩ := Bool.or_eq_false_iff.mp (Bool.eq_false_iff.mpr hignored)
    split
    · exact h.touch extendedKeys true
    next htext => exact h'.close (hundisturbed hextended hfocus (Bool.eq_false_iff.mpr htext))

theorem gestureProgress (hopen : s.MayOpen) : Sound s.gestureProgress := by
  have h' : Sound { s with gestureInProgress := true, box := true } := by
    obtain h | h | h := h
    · exact .inl ⟨h.visible, h.requested, h.unredirect, h.oskCompletion, h.panEnabled, h.panning,
        h.animation, fun _ => rfl⟩
    · exact .inr (.inl ⟨h.visible, h.requested, h.unredirect, h.oskCompletion, h.animation, h.panning,
        rfl⟩)
    · exact .inr (.inr ⟨h.visible, h.requested, h.unredirect, h.oskCompletion, h.panEnabled, h.panning,
        h.animation⟩)
  exact h'.removeTransition hopen

theorem gestureActivate (hopen : s.MayOpen) : Sound s.gestureActivate := by
  have hshown : Shown s.open := by
    obtain h | h | h := h
    · exact h.open
    · exact h.open
    · exact absurd hopen h.not_mayOpen
  exact .inr (.inl ⟨hshown.visible, hshown.requested, hshown.unredirect, hshown.oskCompletion,
    hshown.animation, hshown.panning, hshown.box⟩)

theorem gestureCancel (hundisturbed : Undisturbed s .gestureCancel) :
    Sound s.gestureCancel := by
  rw [State.gestureCancel]
  split
  next hgesture =>
    have hhides : .animateHideComplete ∈ s.animation := hundisturbed hgesture
    obtain h | h | h := h
    · rw [h.animation] at hhides
      cases hhides
    · obtain h' | h' | h' | h' := h.animation
      all_goals
        rw [h'] at hhides
        simp at hhides
    · have hease : s.animateHide = { s with keyboardVisible := false, animation := [.animateHideComplete] } := by
        simp [animateHide, animateHideWith, ease_eq, h.animation, restart]
      rw [hease]
      exact .inr (.inr ⟨rfl, h.requested, h.unredirect, h.oskCompletion, h.panEnabled, h.panning, rfl⟩)
  next hgesture =>
    obtain h | h | h := h
    · exact .inl ⟨h.visible, h.requested, h.unredirect, h.oskCompletion, h.panEnabled, h.panning,
        h.animation, fun hbox => absurd (h.box hbox) hgesture⟩
    · exact .inr (.inl ⟨h.visible, h.requested, h.unredirect, h.oskCompletion, h.animation, h.panning,
        h.box⟩)
    · exact .inr (.inr ⟨h.visible, h.requested, h.unredirect, h.oskCompletion, h.panEnabled, h.panning,
        h.animation⟩)

theorem shown_of_panning (hpan : s.panEnabled = true ∨ s.panning = true) : Shown s := by
  obtain h | h | h := h
  · rw [h.panEnabled, h.panning] at hpan
    simp at hpan
  · exact h
  · rw [h.panEnabled, h.panning] at hpan
    simp at hpan

theorem panBegin (henabled : s.panEnabled = true) (hclose : .close ∉ s.animation) :
    Sound s.panBegin := by
  have hshown := h.shown_of_panning (.inl henabled)
  rw [State.panBegin, removeTransition_eq (s := { s with panning := true }) hclose]
  exact .inr (.inl ⟨hshown.visible, hshown.requested, hshown.unredirect, hshown.oskCompletion, .inl rfl,
    by simp, hshown.box⟩)

theorem panUpdate (hpanning : s.panning = true) (moves panOut : Bool) :
    Sound (s.panUpdate moves panOut) := by
  have hshown := h.shown_of_panning (.inr hpanning)
  have h' : Shown { s with panOut := panOut } := ⟨hshown.visible, hshown.requested, hshown.unredirect,
    hshown.oskCompletion, hshown.animation, hshown.panning, hshown.box⟩
  rw [State.panUpdate]
  split
  · exact .inr h'.removeTransition
  · exact .inr (.inl h')

theorem panEnd (hpanning : s.panning = true) : Sound s.panEnd := by
  have hshown := h.shown_of_panning (.inr hpanning)
  have hclose : .close ∉ s.animation := by
    have hne := hshown.panning hpanning
    obtain h' | h' | h' | h' := hshown.animation
    all_goals simp [h'] at hne ⊢
  have hend : s.panEnd =
      { s with panning := false, animation := [if s.panOut then .close else .none] } := by
    rw [State.panEnd, panEndWith, ease_eq (s := { s with panning := false }) hclose]
    rfl
  rw [hend]
  refine .inr (.inl ⟨hshown.visible, hshown.requested, hshown.unredirect, hshown.oskCompletion, ?_,
    Bool.noConfusion, hshown.box⟩)
  cases s.panOut with
  | false => exact .inr (.inr (.inr rfl))
  | true => exact .inr (.inr (.inl rfl))

theorem complete : Sound s.complete := by
  rw [State.complete]
  obtain h | h | h := h
  · rw [h.animation]
    exact .inl ⟨h.visible, h.requested, h.unredirect, h.oskCompletion, h.panEnabled, h.panning, rfl, h.box⟩
  · have h' : Shown { s with animation := [] } := ⟨h.visible, h.requested, h.unredirect,
      h.oskCompletion, .inl rfl, by simp, h.box⟩
    obtain hnone | hshow | hclose | hslide := h.animation
    · rw [hnone]
      exact .inr (.inl h')
    · rw [hshow]
      refine .inr (.inl ?_)
      rw [List.foldl_cons, List.foldl_nil, call, animateShowComplete]
      split
      · exact h'
      · exact ⟨h'.visible, h'.requested, h'.unredirect, h'.oskCompletion, h'.animation, h'.panning, rfl⟩
    · have hpanning : s.panning = false :=
        Bool.eq_false_iff.mpr fun hpanning => h.panning hpanning hclose
      rw [hclose]
      exact .inr (.inr (h'.close hpanning (by simp)))
    · rw [hslide]
      exact .inr (.inl h')
  · rw [h.animation]
    refine .inl ⟨h.visible, h.requested, ?_, ?_, h.panEnabled, h.panning, rfl, Bool.noConfusion⟩
    · change s.unredirect - 1 = 0
      rw [h.unredirect]
      rfl
    · change s.oskCompletion.getD false = false
      rw [h.oskCompletion, Option.getD_some]

theorem step {e : Event} (hundisturbed : Undisturbed s e) (hstep : step s e = some s') :
    Sound s' := by
  cases e with
  | «open» =>
    cases hstep
    exact h.open hundisturbed
  | close =>
    cases hstep
    exact h.close hundisturbed
  | panelState state =>
    cases state with
    | off =>
      cases hstep
      exact h.close hundisturbed
    | on =>
      cases hstep
      exact h.open hundisturbed
    | toggle =>
      cases hstep
      rw [Undisturbed] at hundisturbed
      split at hundisturbed
      next hvisible =>
        rw [if_pos hvisible]
        exact h.close hundisturbed
      next hvisible =>
        rw [if_neg hvisible]
        exact h.open hundisturbed
  | keyFocus extendedKeys text =>
    cases hstep
    exact h.keyFocusChanged hundisturbed
  | idle =>
    obtain ⟨-, rfl⟩ : s.showIdle = true ∧ s.open = s' := by simpa [Keyboard.step] using hstep
    exact h.open hundisturbed
  | gestureProgress =>
    cases hstep
    exact h.gestureProgress hundisturbed
  | gestureActivate =>
    cases hstep
    exact h.gestureActivate hundisturbed
  | gestureCancel =>
    cases hstep
    exact h.gestureCancel hundisturbed
  | panBegin =>
    obtain ⟨⟨henabled, -⟩, rfl⟩ : (s.panEnabled = true ∧ s.panning = false) ∧ s.panBegin = s' := by
      simpa [Keyboard.step] using hstep
    exact h.panBegin henabled hundisturbed
  | panUpdate moves panOut =>
    obtain ⟨hpanning, rfl⟩ : s.panning = true ∧ s.panUpdate moves panOut = s' := by
      simpa [Keyboard.step] using hstep
    exact h.panUpdate hpanning moves panOut
  | panEnd =>
    obtain ⟨hpanning, rfl⟩ : s.panning = true ∧ s.panEnd = s' := by
      simpa [Keyboard.step] using hstep
    exact h.panEnd hpanning
  | complete =>
    obtain ⟨-, rfl⟩ : s.animation ≠ [] ∧ s.complete = s' := by simpa [Keyboard.step] using hstep
    exact h.complete
  | interrupt =>
    obtain ⟨-, rfl⟩ : s.animation ≠ [] ∧ s.removeTransition = s' := by
      simpa [Keyboard.step] using hstep
    exact h.removeTransition hundisturbed

end

end Sound

/-- A run of steps that do not get in the way keeps the counter and the flags. -/
theorem run_consistent (wayland : Bool) (h : Runs.Reach step Undisturbed (State.new wayland) s) :
    Consistent s := by
  have hsound : Sound s := h.invariant (.inl (Hidden.new wayland)) fun _ _ _ hs hu hstep =>
    hs.step hu hstep
  exact hsound.consistent

/-- The keyboard is opened, swiped down and opened again. -/
theorem run_consistent_swiped :
    let es : List Event := [.open, .complete, .panBegin, .panUpdate true true, .panEnd, .complete,
      .complete, .open]
    ∃ s, Runs.run step (State.new true) es = some s ∧ Consistent s := by
  intro es
  have hsome : (Runs.run step (State.new true) es).isSome = true := by decide
  obtain ⟨s, hrun⟩ := Option.isSome_iff_exists.mp hsome
  refine ⟨s, hrun, run_consistent true (Runs.Reach.of_run es ?_ hrun)⟩
  decide

def reopened : List Event := [.open, .complete, .close, .open]

/-- Then it is visible and unredirection is disabled twice. -/
theorem not_run_consistent :
    ¬ ∀ (wayland : Bool) (s : State), Runs.Reachable step (State.new wayland) s → Consistent s := by
  intro h
  have hends : (Runs.run step (State.new true) reopened).map
      (fun s => (s.keyboardVisible, s.unredirect)) = some (true, 2) := by
    decide
  obtain ⟨s, hrun, hstate⟩ := Option.map_eq_some_iff.mp hends
  obtain ⟨hvisible, hcount⟩ : s.keyboardVisible = true ∧ s.unredirect = 2 := by simpa using hstate
  have hone := (h true s (Runs.Reachable.of_run _ hrun)).unredirect
  rw [if_pos (.inl hvisible), hcount] at hone
  cases hone

end Keyboard
