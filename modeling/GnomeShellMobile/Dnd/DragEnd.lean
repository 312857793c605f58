import GnomeShellMobile.Dnd.Draggable

/-!
# Dnd — each drag ends once

* `Idle`, `Dragging`, `Ending`: where a draggable is between two events.
* `Loose`, `Unannounced`, `Done`: where it is while the clean-ups call each other.
* `Careful`: what an event has to meet.
* `run_dragEnd_once`: what a drag owes, along every run of careful events.
-/

namespace Dnd

variable {s t : State} {a : ℕ} {p : Property}

/-! ## The phases of a drag -/

section Phases

variable (s)

structure Sound : Prop where
  used : s.faults = 0
  released : s.pushes = s.pops + if s.grab then 1 else 0
  bound : ∀ a ∈ s.destroyed, a ≤ s.created

structure Loose : Prop extends Sound s where
  count : s.dragBegins = s.dragEnds + 1
  dragActor : s.dragActor = none
  animationInProgress : s.animationInProgress = false

structure Unannounced : Prop extends Loose s where
  grab : s.grab = false
  updateHoverId : s.updateHoverId = false
  dragOrigParent : s.dragOrigParent = false

structure Done : Prop extends Sound s where
  ended : s.Over
  animationInProgress : s.animationInProgress = false
  dragOrigParent : s.dragOrigParent = false

structure Idle : Prop extends Done s where
  easing : s.easing = []

structure Holds (a : ℕ) : Prop extends Sound s where
  count : s.dragBegins = s.dragEnds + 1
  grab : s.grab = true
  dragActor : s.dragActor = some a
  alive : a ∉ s.destroyed
  created : a ≤ s.created

structure Dragging (a : ℕ) : Prop extends Holds s a where
  animationInProgress : s.animationInProgress = false
  easing : s.easing = []

structure Ending (a : ℕ) (p : Property) : Prop extends Holds s a where
  animationInProgress : s.animationInProgress = true
  easing : s.easing = [(a, p)]

structure Stopped (a : ℕ) : Prop extends Holds s a where
  animationInProgress : s.animationInProgress = true
  easing : s.easing = []

def Inv : Prop := Idle s ∨ (∃ a, Dragging s a) ∨ ∃ a p, Ending s a p

variable {s}

theorem Inv.law (h : Inv s) : Law s := by
  obtain h | ⟨a, h⟩ | ⟨a, p, h⟩ := h
  · exact ⟨h.used, h.released, Or.inl h.ended⟩
  · refine ⟨h.used, h.released, Or.inr ⟨h.count, h.grab, a, h.dragActor, fun hprogress => ?_⟩⟩
    rw [h.animationInProgress] at hprogress
    cases hprogress
  · refine ⟨h.used, h.released, Or.inr ⟨h.count, h.grab, a, h.dragActor, fun _ => ⟨p, ?_⟩⟩⟩
    rw [h.easing]
    exact List.mem_singleton_self _

theorem Idle.new (params : Params) : Idle (State.new params) where
  used := rfl
  released := rfl
  bound a hmem := by cases hmem
  ended := ⟨rfl, rfl, rfl, rfl⟩
  animationInProgress := rfl
  dragOrigParent := rfl
  easing := rfl

end Phases

/-! ## The clean-ups -/

section CleanUps

theorem dragComplete_eq (s : State) : s.dragComplete = { s with
      grab := false
      pops := s.pops + if s.grab then 1 else 0
      updateHoverId := false
      dragActor := none
      dragOrigParent := false
      dragActorSource := none } := by
  rw [State.dragComplete]
  by_cases hgrab : s.grab = true
  · rw [if_pos hgrab, if_pos hgrab]
    rfl
  · rw [if_neg hgrab, if_neg hgrab, Bool.eq_false_iff.mpr hgrab]
    rfl

theorem Sound.dragComplete (h : Sound s) : Sound s.dragComplete := by
  rw [dragComplete_eq]
  exact ⟨h.used, h.released, h.bound⟩

theorem Loose.dragComplete (h : Loose s) : Unannounced s.dragComplete := by
  have hsound := h.toSound.dragComplete
  rw [dragComplete_eq] at hsound ⊢
  exact ⟨⟨hsound, h.count, rfl, h.animationInProgress⟩, rfl, rfl, rfl⟩

theorem Unannounced.emitDragEnd (h : Unannounced s) : Done s.emitDragEnd where
  __ := h
  ended := ⟨h.count.symm, h.grab, h.updateHoverId, h.dragActor⟩

theorem Loose.cancelDragWithout (h : Loose s) : Done s.cancelDragWithout := by
  have hcancelled : Loose { s with dragCancels := s.dragCancels + 1 } :=
    ⟨⟨h.used, h.released, h.bound⟩, h.count, h.dragActor, h.animationInProgress⟩
  exact hcancelled.dragComplete.emitDragEnd

theorem Loose.emitDragEnd_dragComplete (h : Loose s) : Done s.emitDragEnd.dragComplete := by
  have hsound : Sound s.emitDragEnd := ⟨h.used, h.released, h.bound⟩
  have hcomplete := hsound.dragComplete
  rw [dragComplete_eq] at hcomplete ⊢
  exact ⟨hcomplete, ⟨h.count.symm, rfl, rfl, rfl⟩, h.animationInProgress, rfl⟩

theorem Holds.finishAnimation (h : Holds s a) (hprogress : s.animationInProgress = true) :
    Unannounced s.finishAnimation := by
  rw [State.finishAnimation, if_pos hprogress]
  have hsound : Sound { s with animationInProgress := false } := ⟨h.used, h.released, h.bound⟩
  have hcomplete := hsound.dragComplete
  rw [dragComplete_eq] at hcomplete ⊢
  exact ⟨⟨hcomplete, h.count, rfl, rfl⟩, rfl, rfl, rfl⟩

theorem Holds.emitDragEnd_finishAnimation (h : Holds s a) (hprogress : s.animationInProgress = true) :
    Done s.emitDragEnd.finishAnimation := by
  have hstarted : s.emitDragEnd.animationInProgress = true := hprogress
  rw [State.finishAnimation, if_pos hstarted]
  have hsound : Sound { s.emitDragEnd with animationInProgress := false } :=
    ⟨h.used, h.released, h.bound⟩
  have hcomplete := hsound.dragComplete
  rw [dragComplete_eq] at hcomplete ⊢
  exact ⟨hcomplete, ⟨h.count.symm, rfl, rfl, rfl⟩, rfl, rfl⟩

theorem finishAnimation_of_not (hprogress : s.animationInProgress = false) :
    s.finishAnimation = s := by
  rw [State.finishAnimation, hprogress]
  exact if_neg Bool.false_ne_true

structure Keeps (s t : State) : Prop where
  params : t.params = s.params
  created : t.created = s.created
  destroyed : t.destroyed = s.destroyed
  easing : t.easing = s.easing
  dragCancellable : t.dragCancellable = s.dragCancellable

theorem Keeps.dragComplete (s : State) : Keeps s s.dragComplete := by
  rw [dragComplete_eq]
  exact ⟨rfl, rfl, rfl, rfl, rfl⟩

theorem Keeps.finishAnimation (s : State) : Keeps s s.finishAnimation := by
  rw [State.finishAnimation]
  split
  · have hcomplete := Keeps.dragComplete { s with animationInProgress := false }
    exact ⟨hcomplete.1, hcomplete.2, hcomplete.3, hcomplete.4, hcomplete.5⟩
  · exact ⟨rfl, rfl, rfl, rfl, rfl⟩

theorem Keeps.cancelDragWithout (s : State) : Keeps s s.cancelDragWithout := by
  have hcomplete := Keeps.dragComplete { s with dragCancels := s.dragCancels + 1 }
  exact ⟨hcomplete.1, hcomplete.2, hcomplete.3, hcomplete.4, hcomplete.5⟩

theorem Keeps.trans {u : State} (h : Keeps s t) (h' : Keeps t u) : Keeps s u :=
  ⟨h'.1.trans h.1, h'.2.trans h.2, h'.3.trans h.3, h'.4.trans h.4, h'.5.trans h.5⟩

theorem Keeps.onDragActorDestroy (s : State) : Keeps s s.onDragActorDestroy := by
  have hfinish := Keeps.finishAnimation s
  have hforget : Keeps s { s.finishAnimation with dragActor := none } :=
    ⟨hfinish.1, hfinish.2, hfinish.3, hfinish.4, hfinish.5⟩
  rw [State.onDragActorDestroy]
  dsimp only
  split
  · exact hforget.trans (Keeps.cancelDragWithout _)
  · exact hforget

end CleanUps

/-! ## The end of the drag actor -/

section DragActor

theorem Dragging.loose (h : Dragging s a) : Loose { s with dragActor := none } :=
  ⟨⟨h.used, h.released, h.bound⟩, h.count, rfl, h.animationInProgress⟩

theorem Dragging.onDragActorDestroy_eq (h : Dragging s a) : s.onDragActorDestroy =
    if s.dragCancellable then { s with dragActor := none }.cancelDragWithout
    else { s with dragActor := none } := by
  rw [State.onDragActorDestroy, finishAnimation_of_not h.animationInProgress]

theorem Unannounced.forget (h : Unannounced s) : Unannounced { s with dragActor := none } :=
  ⟨⟨⟨h.used, h.released, h.bound⟩, h.count, rfl, h.animationInProgress⟩, h.grab, h.updateHoverId,
    h.dragOrigParent⟩

theorem Holds.onDragActorDestroy (h : Holds s a) (hprogress : s.animationInProgress = true) :
    if s.dragCancellable then Done s.onDragActorDestroy else Unannounced s.onDragActorDestroy := by
  have hforget := (h.finishAnimation hprogress).forget
  rw [State.onDragActorDestroy, ← (Keeps.finishAnimation s).dragCancellable]
  dsimp only
  split
  · exact hforget.toLoose.cancelDragWithout
  · exact hforget

theorem Sound.removeActor (h : Sound s) (ha : a ≤ s.created) : Sound (s.removeActor a) where
  __ := h
  bound := by
    intro b hb
    obtain rfl | hb := List.mem_cons.mp hb
    · exact ha
    · exact h.bound b hb

theorem Done.removeActor (h : Done s) (ha : a ≤ s.created) : Done (s.removeActor a) :=
  ⟨h.toSound.removeActor ha, h.ended, h.animationInProgress, h.dragOrigParent⟩

theorem Loose.removeActor (h : Loose s) (ha : a ≤ s.created) : Loose (s.removeActor a) :=
  ⟨h.toSound.removeActor ha, h.count, h.dragActor, h.animationInProgress⟩

theorem Unannounced.removeActor (h : Unannounced s) (ha : a ≤ s.created) :
    Unannounced (s.removeActor a) :=
  ⟨h.toLoose.removeActor ha, h.grab, h.updateHoverId, h.dragOrigParent⟩

theorem destroyDragActor_eq (s : State) (a : ℕ) : s.destroyDragActor a =
    if s.easing.any (·.1 = a) ∧ s.params.signalsDestroyed then
      (s.onDragActorDestroy.removeActor a).onAnimationCompleteWithout
    else s.onDragActorDestroy.removeActor a := by
  rw [State.destroyDragActor, ← (Keeps.onDragActorDestroy s).params]
  rfl

theorem easing_removeActor (h : ∀ e ∈ s.easing, e.1 = a) :
    (s.onDragActorDestroy.removeActor a).easing = [] := by
  show s.onDragActorDestroy.easing.filter _ = []
  rw [(Keeps.onDragActorDestroy s).easing]
  apply List.filter_eq_nil_iff.mpr
  intro e he
  simp [h e he]

theorem Holds.created_onDragActorDestroy (h : Holds s a) : a ≤ s.onDragActorDestroy.created := by
  rw [(Keeps.onDragActorDestroy s).created]
  exact h.created

theorem destroyDragActor_of_nil (heasing : s.easing = []) :
    s.destroyDragActor a = s.onDragActorDestroy.removeActor a := by
  rw [destroyDragActor_eq, heasing]
  exact if_neg fun h => Bool.false_ne_true h.1

theorem easing_destroyDragActor_of_nil (heasing : s.easing = []) :
    (s.destroyDragActor a).easing = [] := by
  rw [destroyDragActor_of_nil heasing]
  apply easing_removeActor
  intro e he
  rw [heasing] at he
  cases he

theorem Dragging.destroyDragActor (h : Dragging s a) (hcancellable : s.dragCancellable = true) :
    Idle (s.destroyDragActor a) := by
  have hdone : Done s.onDragActorDestroy := by
    rw [h.onDragActorDestroy_eq, if_pos hcancellable]
    exact h.loose.cancelDragWithout
  refine ⟨?_, easing_destroyDragActor_of_nil h.easing⟩
  rw [destroyDragActor_of_nil h.easing]
  exact hdone.removeActor h.created_onDragActorDestroy

theorem Dragging.destroyDragActor_loose (h : Dragging s a) (hcancellable : s.dragCancellable = false) :
    Loose (s.destroyDragActor a) := by
  have hnot : ¬ s.dragCancellable = true := by
    rw [hcancellable]
    exact Bool.false_ne_true
  have hloose : Loose s.onDragActorDestroy := by
    rw [h.onDragActorDestroy_eq, if_neg hnot]
    exact h.loose
  rw [destroyDragActor_of_nil h.easing]
  exact hloose.removeActor h.created_onDragActorDestroy

theorem Stopped.destroyDragActor (h : Stopped s a) (hcancellable : s.dragCancellable = false) :
    Unannounced (s.destroyDragActor a) := by
  have hdestroy := h.onDragActorDestroy h.animationInProgress
  rw [hcancellable] at hdestroy
  rw [destroyDragActor_of_nil h.easing]
  exact Unannounced.removeActor hdestroy h.created_onDragActorDestroy

theorem Done.finishAnimation (h : Done s) : s.finishAnimation = s :=
  finishAnimation_of_not h.animationInProgress

theorem Unannounced.onAnimationCompleteWithout (h : Unannounced s) :
    s.onAnimationCompleteWithout = s.emitDragEnd := by
  have hnot : ¬ s.dragOrigParent = true := by
    rw [h.dragOrigParent]
    exact Bool.false_ne_true
  rw [State.onAnimationCompleteWithout, if_neg hnot, h.emitDragEnd.finishAnimation]

section

variable (h : Ending s a p)
include h

theorem Ending.any_easing : s.easing.any (·.1 = a) = true := by
  rw [h.easing]
  simp

theorem Ending.easing_removeActor :
    (s.onDragActorDestroy.removeActor a).easing = [] := by
  apply Dnd.easing_removeActor
  intro e he
  rw [h.easing] at he
  rw [List.mem_singleton.mp he]

theorem Ending.destroyDragActor
    (hone : s.dragCancellable ≠ s.params.signalsDestroyed) : Idle (s.destroyDragActor a) := by
  have hdestroy := h.onDragActorDestroy h.animationInProgress
  have heasing := h.easing_removeActor
  rw [destroyDragActor_eq]
  cases hcancellable : s.dragCancellable with
  | true =>
    have hsignals : ¬ s.params.signalsDestroyed = true := fun hsignals =>
      hone (hcancellable.trans hsignals.symm)
    rw [hcancellable] at hdestroy
    rw [if_neg fun hboth => hsignals hboth.2]
    exact ⟨Done.removeActor hdestroy h.created_onDragActorDestroy, heasing⟩
  | false =>
    have hsignals : s.params.signalsDestroyed = true := by
      rw [hcancellable] at hone
      exact Bool.ne_false_iff.mp hone.symm
    rw [hcancellable] at hdestroy
    have hleft := Unannounced.removeActor hdestroy h.created_onDragActorDestroy
    rw [if_pos ⟨h.any_easing, hsignals⟩, hleft.onAnimationCompleteWithout]
    exact ⟨hleft.emitDragEnd, heasing⟩

theorem Ending.destroyDragActor_unannounced
    (hcancellable : s.dragCancellable = false) (hsignals : s.params.signalsDestroyed = false) :
    Unannounced (s.destroyDragActor a) ∧ (s.destroyDragActor a).easing = [] := by
  have hdestroy := h.onDragActorDestroy h.animationInProgress
  have hnot : ¬ s.params.signalsDestroyed = true := by
    rw [hsignals]
    exact Bool.false_ne_true
  rw [hcancellable] at hdestroy
  rw [destroyDragActor_eq, if_neg fun hboth => hnot hboth.2]
  exact ⟨Unannounced.removeActor hdestroy h.created_onDragActorDestroy, h.easing_removeActor⟩

end

end DragActor

/-! ## The end of the animation -/

section Animation

/-- When the animation stops, the drag actor goes back, or its end does not cancel the drag again. -/
def Completes (s : State) : Prop := s.dragCancellable = false ∨ s.dragOrigParent = true
deriving Decidable

theorem onAnimationComplete_of_some (ha : s.dragActor = some a) : s.onAnimationComplete =
    (if s.dragOrigParent then { s with inUiGroup := false, scaling := s.scaling.filter (· ≠ a) }
      else s.destroyDragActor a).emitDragEnd.finishAnimation := by
  rw [State.onAnimationComplete]
  split
  · next hnone =>
    rw [ha] at hnone
    cases hnone
  · next b hsome =>
    obtain rfl := Option.some.inj (hsome.symm.trans ha)
    rfl

theorem Stopped.onAnimationComplete (h : Stopped s a) (hcompletes : Completes s) :
    Idle s.onAnimationComplete := by
  rw [onAnimationComplete_of_some h.dragActor]
  by_cases hparent : s.dragOrigParent = true
  · rw [if_pos hparent]
    have hback : Holds
        { s with inUiGroup := false, scaling := s.scaling.filter (· ≠ a) } a :=
      ⟨⟨h.used, h.released, h.bound⟩, h.count, h.grab, h.dragActor, h.alive, h.created⟩
    refine ⟨hback.emitDragEnd_finishAnimation h.animationInProgress, ?_⟩
    rw [(Keeps.finishAnimation _).easing]
    exact h.easing
  · have hcancellable : s.dragCancellable = false := hcompletes.resolve_right hparent
    have hleft := h.destroyDragActor hcancellable
    rw [if_neg hparent, hleft.emitDragEnd.finishAnimation]
    exact ⟨hleft.emitDragEnd, easing_destroyDragActor_of_nil h.easing⟩

theorem withDragActor_of_some (ha : s.dragActor = some a) (f : State → ℕ → State) :
    s.withDragActor f = f s a := by
  rw [State.withDragActor, ha]

theorem setProperty_of_not_mem (hnot : (a, p) ∉ s.easing) :
    ∃ l, s.setProperty a p = { s with scaling := l } := by
  rw [State.setProperty]
  by_cases hscale : p = .scale
  · refine ⟨s.scaling.filter (· ≠ a), ?_⟩
    rw [if_pos hscale]
    exact if_neg hnot
  · refine ⟨s.scaling, ?_⟩
    rw [if_neg hscale]
    exact if_neg hnot

/-- Induction on the properties. -/
theorem foldl_setProperty_of_nil (heasing : s.easing = []) (properties : List Property) :
    ∃ l, properties.foldl (fun s p => State.setProperty s a p) s = { s with scaling := l } := by
  induction properties generalizing s with
  | nil => exact ⟨s.scaling, rfl⟩
  | cons p properties ih =>
    have hnot : (a, p) ∉ s.easing := by
      rw [heasing]
      exact List.not_mem_nil
    obtain ⟨l, hset⟩ := setProperty_of_not_mem hnot
    rw [List.foldl_cons, hset]
    exact ih heasing

theorem Holds.scaling (h : Holds s a) (l : List ℕ) : Holds { s with scaling := l } a :=
  ⟨⟨h.used, h.released, h.bound⟩, h.count, h.grab, h.dragActor, h.alive, h.created⟩

theorem Dragging.scaling (h : Dragging s a) (l : List ℕ) : Dragging { s with scaling := l } a :=
  ⟨h.toHolds.scaling l, h.animationInProgress, h.easing⟩

theorem Ending.scaling (h : Ending s a p) (l : List ℕ) : Ending { s with scaling := l } a p :=
  ⟨h.toHolds.scaling l, h.animationInProgress, h.easing⟩

theorem Dragging.setProperty_eq (h : Dragging s a) (p : Property) :
    ∃ l, s.setProperty a p = { s with scaling := l } := by
  apply setProperty_of_not_mem
  rw [h.easing]
  exact List.not_mem_nil

theorem Dragging.animateDragEnd (h : Dragging s a) (properties : List Property)
    {transition : Option Property} (hcompletes : transition = none → Completes s) :
    Inv (s.animateDragEnd properties transition) := by
  have hstarted : Stopped { s with animationInProgress := true } a :=
    ⟨⟨⟨h.used, h.released, h.bound⟩, h.count, h.grab, h.dragActor, h.alive, h.created⟩, rfl, h.easing⟩
  rw [State.animateDragEnd, withDragActor_of_some hstarted.dragActor]
  obtain ⟨l, hset⟩ := foldl_setProperty_of_nil (a := a) hstarted.easing properties
  have hstopped : Stopped { s with animationInProgress := true, scaling := l } a :=
    ⟨hstarted.toHolds.scaling l, rfl, h.easing⟩
  rw [hset]
  cases transition with
  | none => exact Or.inl (hstopped.onAnimationComplete (hcompletes rfl))
  | some p =>
    dsimp only
    rw [if_neg h.alive]
    refine Or.inr (Or.inr ⟨a, p, ⟨?_, rfl, ?_⟩⟩)
    · exact ⟨⟨h.used, h.released, h.bound⟩, h.count, h.grab, h.dragActor, h.alive, h.created⟩
    · show (a, p) :: s.easing = [(a, p)]
      rw [h.easing]

theorem cancelDrag_of_some (ha : s.dragActor = some a) (transition : Option Property) :
    s.cancelDrag transition = { s with dragCancels := s.dragCancels + 1 }.animateDragEnd
      [.position, .scale, .opacity] transition := by
  rw [State.cancelDrag]
  split
  · next hnone =>
    rw [ha] at hnone
    cases hnone
  · rfl

theorem cancelDrag_of_none (ha : s.dragActor = none) (transition : Option Property) :
    s.cancelDrag transition = s.cancelDragWithout := by
  rw [State.cancelDrag, ha]

theorem Dragging.cancelDrag (h : Dragging s a) {transition : Option Property}
    (hcompletes : transition = none → Completes s) : Inv (s.cancelDrag transition) := by
  rw [cancelDrag_of_some h.dragActor]
  have hcancelled : Dragging { s with dragCancels := s.dragCancels + 1 } a :=
    ⟨⟨⟨h.used, h.released, h.bound⟩, h.count, h.grab, h.dragActor, h.alive, h.created⟩,
      h.animationInProgress, h.easing⟩
  exact hcancelled.animateDragEnd _ hcompletes

theorem Dragging.restoreDragActor (h : Dragging s a) (hcancellable : s.dragCancellable = false)
    (fades : Bool) : Inv (s.restoreDragActor fades) := by
  rw [State.restoreDragActor, withDragActor_of_some h.dragActor]
  obtain ⟨l, hposition⟩ := h.setProperty_eq .position
  have h1 := h.scaling l
  rw [hposition, withDragActor_of_some h1.dragActor]
  obtain ⟨l, hscale⟩ := h1.setProperty_eq .scale
  have h2 := h1.scaling l
  rw [hscale, withDragActor_of_some h2.dragActor]
  obtain ⟨l, hopacity⟩ := h2.setProperty_eq .opacity
  rw [hopacity]
  exact (h2.scaling l).animateDragEnd _ fun _ => Or.inl hcancellable

theorem Ending.stopped (h : Ending s a p) : Stopped { s with easing := s.easing.erase (a, p) } a := by
  refine ⟨⟨⟨h.used, h.released, h.bound⟩, h.count, h.grab, h.dragActor, h.alive, h.created⟩,
    h.animationInProgress, ?_⟩
  show s.easing.erase (a, p) = []
  rw [h.easing, List.erase_cons_head]

end Animation

/-! ## Motions -/

section Motions

def CanMove (s : State) : Prop :=
  s.dragActor ≠ none ∧ ∀ a ∈ s.dragActor, (a, Property.position) ∈ s.easing → Completes s
deriving Decidable

theorem Ending.updateActorPosition (h : Ending s a p) (hmove : CanMove s) :
    Inv s.updateActorPosition := by
  rw [State.updateActorPosition, withDragActor_of_some h.dragActor]
  by_cases hmem : (a, Property.position) ∈ s.easing
  · have hcompletes := hmove.2 a h.dragActor hmem
    obtain rfl : p = .position := by
      rw [h.easing] at hmem
      exact (Prod.mk.inj (List.mem_singleton.mp hmem)).2.symm
    have hset : s.setProperty a .position =
        { s with easing := s.easing.erase (a, .position) }.onAnimationComplete := if_pos hmem
    rw [hset]
    exact Or.inl (h.stopped.onAnimationComplete hcompletes)
  · obtain ⟨l, hset⟩ := setProperty_of_not_mem hmem
    rw [hset]
    exact Or.inr (Or.inr ⟨a, p, h.scaling l⟩)

theorem Dragging.updateActorPosition (h : Dragging s a) : Dragging s.updateActorPosition a := by
  rw [State.updateActorPosition, withDragActor_of_some h.dragActor]
  obtain ⟨l, hset⟩ := h.setProperty_eq .position
  rw [hset]
  exact h.scaling l

theorem Holds.updateHoverId (h : Holds s a) (updateHoverId : Bool) :
    Holds { s with updateHoverId := updateHoverId } a :=
  ⟨⟨h.used, h.released, h.bound⟩, h.count, h.grab, h.dragActor, h.alive, h.created⟩

theorem Dragging.updateDragPosition (h : Dragging s a) : Inv s.updateDragPosition := by
  rw [State.updateDragPosition, withDragActor_of_some h.dragActor]
  obtain ⟨l, hset⟩ := h.setProperty_eq .position
  rw [hset]
  exact Or.inr (Or.inl ⟨a, (h.toHolds.scaling l).updateHoverId true, h.animationInProgress, h.easing⟩)

theorem Ending.updateDragPosition (h : Ending s a p) (hnot : (a, Property.position) ∉ s.easing) :
    Inv s.updateDragPosition := by
  rw [State.updateDragPosition, withDragActor_of_some h.dragActor]
  obtain ⟨l, hset⟩ := setProperty_of_not_mem hnot
  rw [hset]
  exact Or.inr (Or.inr ⟨a, p, (h.toHolds.scaling l).updateHoverId true, h.animationInProgress,
    h.easing⟩)

end Motions

/-! ## Handlers and targets -/

section Handlers

variable {α : Type*} [DecidableEq α]

def Active (s : State) (a : ℕ) : Prop := Dragging s a ∨ ∃ p, Ending s a p

theorem Active.inv (h : Active s a) : Inv s := by
  obtain h | ⟨p, h⟩ := h
  · exact Or.inr (Or.inl ⟨a, h⟩)
  · exact Or.inr (Or.inr ⟨a, p, h⟩)

theorem Active.holds (h : Active s a) : Holds s a := by
  obtain h | ⟨p, h⟩ := h
  · exact h.toHolds
  · exact h.toHolds

def EndsWithActor (s : State) : Prop :=
  if s.animationInProgress then s.dragCancellable ≠ s.params.signalsDestroyed
  else s.dragCancellable = true
deriving Decidable

theorem Active.destroyDragActor (h : Active s a) (hone : EndsWithActor s) :
    Idle (s.destroyDragActor a) := by
  rw [EndsWithActor] at hone
  obtain h | ⟨p, h⟩ := h
  · rw [h.animationInProgress] at hone
    exact h.destroyDragActor hone
  · rw [h.animationInProgress] at hone
    exact h.destroyDragActor hone

theorem dragActor_finishAnimation (ha : s.dragActor = none) : s.finishAnimation.dragActor = none := by
  rw [State.finishAnimation]
  split
  · rw [dragComplete_eq]
  · exact ha

theorem dragActor_destroyDragActor (s : State) (a : ℕ) : (s.destroyDragActor a).dragActor = none := by
  have hhandler : s.onDragActorDestroy.dragActor = none := by
    rw [State.onDragActorDestroy]
    dsimp only
    split
    · rw [State.cancelDragWithout, dragComplete_eq]
      rfl
    · rfl
  rw [destroyDragActor_eq]
  split
  · rw [State.onAnimationCompleteWithout]
    split
    · exact hhandler
    · exact dragActor_finishAnimation hhandler
  · exact hhandler

theorem handled_of_some (ha : s.dragActor = some a) (destroys : Bool) :
    s.handled destroys = if destroys then s.destroyDragActor a else s := by
  rw [State.handled, ha]

theorem handled_of_none (ha : s.dragActor = none) (destroys : Bool) : s.handled destroys = s := by
  rw [State.handled, ha]

def passes (cont : α) (hs : List (Handler α)) : Bool := hs.all (·.answer = cont)

theorem passes_cons (cont : α) (h : Handler α) (hs : List (Handler α)) :
    passes cont (h :: hs) = (decide (h.answer = cont) && passes cont hs) := List.all_cons

def destroysActor (cont : α) : List (Handler α) → Bool
  | [] => false
  | h :: hs => h.destroys || (decide (h.answer = cont) && destroysActor cont hs)

/-- Induction on the handlers. -/
theorem askMonitors_of_none {cont : α} (ha : s.dragActor = none) (hs : List (Handler α)) :
    s.askMonitors cont hs = (s, passes cont hs) := by
  induction hs with
  | nil => rfl
  | cons h hs ih =>
    rw [State.askMonitors, handled_of_none ha, ih, passes_cons]
    by_cases hcont : h.answer = cont
    · rw [if_pos hcont, decide_eq_true hcont]
      rfl
    · rw [if_neg hcont, decide_eq_false hcont]
      rfl

/-- The actor is destroyed once at most. Induction on the handlers. -/
theorem askMonitors_of_some {cont : α} (ha : s.dragActor = some a) (hs : List (Handler α)) :
    s.askMonitors cont hs =
      (if destroysActor cont hs then s.destroyDragActor a else s, passes cont hs) := by
  induction hs with
  | nil => rfl
  | cons h hs ih =>
    rw [State.askMonitors, handled_of_some ha, passes_cons, destroysActor]
    by_cases hcont : h.answer = cont
    · rw [if_pos hcont, decide_eq_true hcont]
      cases h.destroys with
      | true => exact askMonitors_of_none (dragActor_destroyDragActor s a) hs
      | false => exact ih
    · rw [if_neg hcont, decide_eq_false hcont]
      cases h.destroys <;> rfl

def LastDestroys : List (Handler DragMotionResult) → Prop
  | [] => True
  | h :: hs => h.answer = .cont → (h.destroys = true → hs = []) ∧ LastDestroys hs

instance LastDestroys.decidable : (hs : List (Handler DragMotionResult)) → Decidable (LastDestroys hs)
  | [] => .isTrue trivial
  | h :: hs =>
    have := LastDestroys.decidable hs
    inferInstanceAs (Decidable (h.answer = .cont → (h.destroys = true → hs = []) ∧ LastDestroys hs))

theorem handOver_of_some (ha : s.dragActor = some a) : s.handOver = s := by
  rw [State.handOver, ha]
  rfl

/-- Induction on the targets. -/
theorem Active.handleDragOver (h : Active s a) {targets : List (Handler DragMotionResult)}
    (hlast : LastDestroys targets) (hone : destroysActor .cont targets = true → EndsWithActor s) :
    Inv (s.handleDragOver targets) := by
  induction targets with
  | nil => exact h.inv
  | cons target targets ih =>
    have ha := h.holds.dragActor
    rw [State.handleDragOver, handOver_of_some ha, handled_of_some ha]
    rw [destroysActor] at hone
    cases hdestroys : target.destroys with
    | true =>
      have hidle : Idle (s.destroyDragActor a) := by
        apply h.destroyDragActor
        apply hone
        rw [hdestroys]
        rfl
      rw [if_pos rfl]
      split
      · next hcont =>
        rw [(hlast hcont).1 hdestroys]
        exact Or.inl hidle
      · exact Or.inl hidle
    | false =>
      rw [if_neg Bool.false_ne_true]
      split
      · next hcont =>
        apply ih (hlast hcont).2
        intro hlater
        apply hone
        rw [hlater, decide_eq_true hcont, Bool.true_and, Bool.or_true]
      · exact h.inv

end Handlers

/-! ## A drop -/

section Drops

theorem Loose.accepted (h : Loose s) (heasing : s.easing = []) (fades : Bool) :
    Idle (s.accepted fades) := by
  rw [State.accepted, h.dragActor]
  refine ⟨h.emitDragEnd_dragComplete, ?_⟩
  rw [(Keeps.dragComplete _).easing]
  exact heasing

theorem Loose.refused (h : Loose s) (heasing : s.easing = []) (transition : Option Property) :
    Idle (s.cancelDrag transition) := by
  rw [cancelDrag_of_none h.dragActor]
  refine ⟨h.cancelDragWithout, ?_⟩
  rw [(Keeps.cancelDragWithout _).easing]
  exact heasing

theorem Dragging.emitDragEnd_dragComplete (h : Dragging s a) : Idle s.emitDragEnd.dragComplete := by
  have hsound : Sound s.emitDragEnd := ⟨h.used, h.released, h.bound⟩
  have hcomplete := hsound.dragComplete
  rw [dragComplete_eq] at hcomplete ⊢
  exact ⟨⟨hcomplete, ⟨h.count.symm, rfl, rfl, rfl⟩, h.animationInProgress, rfl⟩, h.easing⟩

theorem accepted_of_some (ha : s.dragActor = some a) (fades : Bool) : s.accepted fades =
    if s.inUiGroup then
      if s.params.restoreOnSuccess then s.restoreDragActor fades
      else (s.destroyDragActor a).emitDragEnd.dragComplete
    else s.emitDragEnd.dragComplete := by
  rw [State.accepted, ha]

theorem Loose.ends (h : Loose s) (heasing : s.easing = []) : Idle s.emitDragEnd.dragComplete := by
  refine ⟨h.emitDragEnd_dragComplete, ?_⟩
  rw [(Keeps.dragComplete _).easing]
  exact heasing

theorem Dragging.accepted (h : Dragging s a) (hcancellable : s.dragCancellable = false)
    (fades : Bool) : Inv (s.accepted fades) := by
  rw [accepted_of_some h.dragActor]
  split
  · split
    · exact h.restoreDragActor hcancellable fades
    · have hloose := h.destroyDragActor_loose hcancellable
      exact Or.inl (hloose.ends (easing_destroyDragActor_of_nil h.easing))
  · exact Or.inl h.emitDragEnd_dragComplete

def LastToDestroy : List DropTarget → Prop
  | [] => True
  | t :: ts => t.answer ≠ .accepts → (t.fate = .destroys → ts = []) ∧ LastToDestroy ts

instance LastToDestroy.decidable : (ts : List DropTarget) → Decidable (LastToDestroy ts)
  | [] => .isTrue trivial
  | t :: ts =>
    have := LastToDestroy.decidable ts
    inferInstanceAs
      (Decidable (t.answer ≠ .accepts → (t.fate = .destroys → ts = []) ∧ LastToDestroy ts))

theorem Dragging.takes (h : Dragging s a) (fate : Fate) (hfate : fate ≠ .destroys) :
    Dragging (s.undergo fate) a ∧ (s.undergo fate).dragCancellable = s.dragCancellable := by
  cases fate with
  | leaves => exact ⟨h, rfl⟩
  | takes =>
    refine ⟨⟨?_, h.animationInProgress, h.easing⟩, rfl⟩
    exact ⟨⟨h.used, h.released, h.bound⟩, h.count, h.grab, h.dragActor, h.alive, h.created⟩
  | destroys => exact absurd rfl hfate

theorem undergo_destroys (ha : s.dragActor = some a) :
    s.undergo .destroys = s.destroyDragActor a := handled_of_some ha true

/-- Induction on the targets. -/
theorem Dragging.acceptDrop (h : Dragging s a) (hcancellable : s.dragCancellable = false)
    (fades : Bool) (transition : Option Property) {targets : List DropTarget}
    (hlast : LastToDestroy targets) : Inv (s.acceptDrop fades transition targets) := by
  induction targets generalizing s with
  | nil => exact h.cancelDrag fun _ => Or.inl hcancellable
  | cons target targets ih =>
    rw [State.acceptDrop, handOver_of_some h.dragActor]
    by_cases hfate : target.fate = .destroys
    · have hloose := h.destroyDragActor_loose hcancellable
      have heasing : (s.destroyDragActor a).easing = [] := easing_destroyDragActor_of_nil h.easing
      rw [hfate, undergo_destroys h.dragActor]
      split
      · exact Or.inl (hloose.accepted heasing fades)
      · next hanswer =>
        -- it was the last one
        rw [(hlast hanswer).1 hfate]
        exact Or.inl (hloose.refused heasing transition)
    · obtain ⟨hdragging, hsame⟩ := h.takes target.fate hfate
      split
      · exact hdragging.accepted (hsame.trans hcancellable) fades
      · next hanswer => exact ih hdragging (hsame.trans hcancellable) (hlast hanswer).2

def DestroyedBy (restoreOnSuccess : Bool) : Bool → List DropTarget → Prop
  | _, [] => False
  | inUiGroup, t :: ts =>
    match t.fate with
    | .destroys => t.answer = .accepts ∨ ts = []
    | .leaves =>
      if t.answer = .accepts then inUiGroup = true ∧ restoreOnSuccess = false
      else DestroyedBy restoreOnSuccess inUiGroup ts
    | .takes => t.answer ≠ .accepts ∧ DestroyedBy restoreOnSuccess false ts

instance DestroyedBy.decidable (restoreOnSuccess : Bool) :
    (inUiGroup : Bool) → (ts : List DropTarget) → Decidable (DestroyedBy restoreOnSuccess inUiGroup ts)
  | _, [] => .isFalse fun h => h
  | inUiGroup, t :: ts =>
    have := DestroyedBy.decidable restoreOnSuccess inUiGroup ts
    have := DestroyedBy.decidable restoreOnSuccess false ts
    match h : t.fate with
    | .destroys => decidable_of_iff (t.answer = .accepts ∨ ts = []) (by rw [DestroyedBy, h])
    | .leaves =>
      decidable_of_iff (if t.answer = .accepts then inUiGroup = true ∧ restoreOnSuccess = false
        else DestroyedBy restoreOnSuccess inUiGroup ts) (by rw [DestroyedBy, h])
    | .takes =>
      decidable_of_iff (t.answer ≠ .accepts ∧ DestroyedBy restoreOnSuccess false ts)
        (by rw [DestroyedBy, h])

/-- A release while the end of the drag is animated. Induction on the targets. -/
theorem Ending.acceptDrop (h : Ending s a p) (hcancellable : s.dragCancellable = false)
    (hsignals : s.params.signalsDestroyed = false) (fades : Bool) (transition : Option Property)
    {targets : List DropTarget}
    (hdestroyed : DestroyedBy s.params.restoreOnSuccess s.inUiGroup targets) :
    Inv (s.acceptDrop fades transition targets) := by
  induction targets generalizing s with
  | nil => exact hdestroyed.elim
  | cons target targets ih =>
    obtain ⟨hleft, heasing⟩ := h.destroyDragActor_unannounced hcancellable hsignals
    rw [State.acceptDrop, handOver_of_some h.dragActor]
    rw [DestroyedBy] at hdestroyed
    cases hfate : target.fate with
    | destroys =>
      rw [hfate] at hdestroyed
      rw [undergo_destroys h.dragActor]
      split
      · exact Or.inl (hleft.toLoose.accepted heasing fades)
      · next hanswer =>
        rw [hdestroyed.resolve_left hanswer]
        exact Or.inl (hleft.toLoose.refused heasing transition)
    | leaves =>
      rw [hfate] at hdestroyed
      dsimp only at hdestroyed
      show Inv (if target.answer = .accepts then s.accepted fades
        else s.acceptDrop fades transition targets)
      split
      · next hanswer =>
        rw [if_pos hanswer] at hdestroyed
        rw [accepted_of_some h.dragActor, if_pos hdestroyed.1, hdestroyed.2]
        exact Or.inl (hleft.toLoose.ends heasing)
      · next hanswer =>
        rw [if_neg hanswer] at hdestroyed
        exact ih h hcancellable hsignals hdestroyed
    | takes =>
      rw [hfate] at hdestroyed
      obtain ⟨hanswer, hrest⟩ := hdestroyed
      rw [if_neg hanswer]
      have htaken : Ending { s with inUiGroup := false } a p := by
        refine ⟨?_, h.animationInProgress, h.easing⟩
        exact ⟨⟨h.used, h.released, h.bound⟩, h.count, h.grab, h.dragActor, h.alive, h.created⟩
      exact ih htaken hcancellable hsignals hrest

/-- What a release has to meet, in four cases: whether a monitor that is asked destroys the drag
actor, and whether no monitor keeps the drop from the targets. -/
def CarefulDrop (s : State) (d : Drop) : Prop :=
  if passes .cont d.monitors then
    if destroysActor .cont d.monitors then
      d.targets = [] ∧ s.dragCancellable = false ∧
        (s.animationInProgress = true → s.params.signalsDestroyed = false)
    else if s.animationInProgress then
      s.params.signalsDestroyed = false ∧
        DestroyedBy s.params.restoreOnSuccess s.inUiGroup d.targets
    else LastToDestroy d.targets
  else destroysActor .cont d.monitors = true → EndsWithActor s

instance (s : State) (d : Drop) : Decidable (CarefulDrop s d) := by
  unfold CarefulDrop
  infer_instance

theorem Active.destroyDragActor_loose (h : Active s a) (hcancellable : s.dragCancellable = false)
    (hsignals : s.animationInProgress = true → s.params.signalsDestroyed = false) :
    Loose (s.destroyDragActor a) ∧ (s.destroyDragActor a).easing = [] := by
  obtain h | ⟨p, h⟩ := h
  · exact ⟨h.destroyDragActor_loose hcancellable, easing_destroyDragActor_of_nil h.easing⟩
  · obtain ⟨hleft, heasing⟩ :=
      h.destroyDragActor_unannounced hcancellable (hsignals h.animationInProgress)
    exact ⟨hleft.toLoose, heasing⟩

theorem Active.dragActorDropped (h : Active s a) {d : Drop} (hcareful : CarefulDrop s d) :
    Inv (s.dragActorDropped d) := by
  have ha := h.holds.dragActor
  rw [State.dragActorDropped, withDragActor_of_some ha, askMonitors_of_some ha]
  rw [CarefulDrop] at hcareful
  cases hpasses : passes .cont d.monitors with
  | false =>
    rw [hpasses, if_neg Bool.false_ne_true] at hcareful
    dsimp only
    split
    · next hdestroys => exact Or.inl (h.destroyDragActor (hcareful hdestroys))
    · exact h.inv
  | true =>
    rw [hpasses, if_pos rfl] at hcareful
    dsimp only
    cases hdestroys : destroysActor .cont d.monitors with
    | true =>
      rw [hdestroys, if_pos rfl] at hcareful
      obtain ⟨htargets, hcancellable, hsignals⟩ := hcareful
      obtain ⟨hloose, heasing⟩ := h.destroyDragActor_loose hcancellable hsignals
      have hstays : Loose { s.destroyDragActor a with dragCancellable := false } :=
        ⟨⟨hloose.used, hloose.released, hloose.bound⟩, hloose.count, hloose.dragActor,
          hloose.animationInProgress⟩
      rw [htargets]
      exact Or.inl (hstays.refused heasing d.transition)
    | false =>
      rw [hdestroys, if_neg Bool.false_ne_true] at hcareful
      have hholds := h.holds
      have hstays : Holds { s with dragCancellable := false } a :=
        ⟨⟨hholds.used, hholds.released, hholds.bound⟩, hholds.count, hholds.grab,
          hholds.dragActor, hholds.alive, hholds.created⟩
      obtain h | ⟨p, h⟩ := h
      · rw [h.animationInProgress, if_neg Bool.false_ne_true] at hcareful
        have hdragging : Dragging { s with dragCancellable := false } a :=
          ⟨hstays, h.animationInProgress, h.easing⟩
        exact hdragging.acceptDrop rfl d.fades d.transition hcareful
      · rw [h.animationInProgress, if_pos rfl] at hcareful
        have hending : Ending { s with dragCancellable := false } a p :=
          ⟨hstays, h.animationInProgress, h.easing⟩
        exact hending.acceptDrop rfl hcareful.1 d.fades d.transition hcareful.2

end Drops

/-! ## Runs -/

section Runs

/-- What the condition asks of an event.

* The end of a drag is animated: no press of Escape, and no motion that would stop it.
* It stops: `Completes`.
* The drag actor is destroyed: `EndsWithActor`, and no handler is called with it afterwards.
* The drag actor is still scaled down: there is one. -/
def Careful (s : State) : Event → Prop
  | .motion => ∀ a ∈ s.dragActor, (a, Property.position) ∉ s.easing
  | .release d => CarefulDrop s d
  | .escape transition =>
    s.animationInProgress = false ∧ (transition = none → Completes s)
  | .updateDragHover monitors targets =>
    (destroysActor .cont monitors = true → EndsWithActor s) ∧
      (passes .cont monitors = true →
        if destroysActor .cont monitors then targets = []
        else LastDestroys targets ∧ (destroysActor .cont targets = true → EndsWithActor s))
  | .animationStopped _ _ => Completes s
  | .scaleFrame _ => CanMove s
  | .scaleStopped _ isFinished => isFinished = true → CanMove s
  | .destroyDragActor => EndsWithActor s
  | _ => True

instance (s : State) (e : Event) : Decidable (Careful s e) := by
  rcases e with _ | _
  · exact instDecidableTrue
  · exact inferInstanceAs (Decidable (∀ _ ∈ _, _ ∉ _))
  all_goals unfold Careful; infer_instance

theorem Inv.active_of_grab (h : Inv s) (hgrab : s.grab = true) : ∃ a, Active s a := by
  obtain h | ⟨a, h⟩ | ⟨a, p, h⟩ := h
  · have hfree := h.ended.2.1
    rw [hgrab] at hfree
    cases hfree
  · exact ⟨a, Or.inl h⟩
  · exact ⟨a, Or.inr ⟨p, h⟩⟩

theorem Inv.active_of_dragActor (h : Inv s) (ha : s.dragActor = some a) : Active s a := by
  obtain h | ⟨b, h⟩ | ⟨b, p, h⟩ := h
  · have hnone := h.ended.2.2.2
    rw [ha] at hnone
    cases hnone
  · obtain rfl := Option.some.inj (h.dragActor.symm.trans ha)
    exact Or.inl h
  · obtain rfl := Option.some.inj (h.dragActor.symm.trans ha)
    exact Or.inr ⟨p, h⟩

theorem Active.with_updateHoverId (h : Active s a) (updateHoverId : Bool) :
    Active { s with updateHoverId := updateHoverId } a := by
  obtain h | ⟨p, h⟩ := h
  · exact Or.inl ⟨h.toHolds.updateHoverId _, h.animationInProgress, h.easing⟩
  · exact Or.inr ⟨p, h.toHolds.updateHoverId _, h.animationInProgress, h.easing⟩

theorem Active.updateDragPosition (h : Active s a)
    (hcareful : ∀ a ∈ s.dragActor, (a, Property.position) ∉ s.easing) :
    Inv s.updateDragPosition := by
  obtain h | ⟨p, h⟩ := h
  · exact h.updateDragPosition
  · exact h.updateDragPosition (hcareful a h.dragActor)

theorem Inv.updateActorPosition (h : Inv s) (hmove : CanMove s) : Inv s.updateActorPosition := by
  obtain h | ⟨a, h⟩ | ⟨a, p, h⟩ := h
  · exact absurd h.ended.2.2.2 hmove.1
  · exact Or.inr (Or.inl ⟨a, h.updateActorPosition⟩)
  · exact h.updateActorPosition hmove

theorem Inv.scaling (h : Inv s) (l : List ℕ) : Inv { s with scaling := l } := by
  obtain h | ⟨a, h⟩ | ⟨a, p, h⟩ := h
  · exact Or.inl ⟨⟨⟨h.used, h.released, h.bound⟩, h.ended, h.animationInProgress, h.dragOrigParent⟩,
      h.easing⟩
  · exact Or.inr (Or.inl ⟨a, h.scaling l⟩)
  · exact Or.inr (Or.inr ⟨a, p, h.scaling l⟩)

theorem Active.updateDragHover (h : Active s a) {monitors targets : List (Handler DragMotionResult)}
    (hcareful : Careful s (.updateDragHover monitors targets)) :
    Inv (s.updateDragHover monitors targets) := by
  obtain ⟨hone, hpassed⟩ := hcareful
  have hactive := h.with_updateHoverId false
  have ha := hactive.holds.dragActor
  rw [State.updateDragHover, withDragActor_of_some ha, askMonitors_of_some ha]
  cases hpasses : passes .cont monitors with
  | false =>
    dsimp only
    split
    · next hdestroys => exact Or.inl (hactive.destroyDragActor (hone hdestroys))
    · exact hactive.inv
  | true =>
    have htargets := hpassed hpasses
    dsimp only
    cases hdestroys : destroysActor .cont monitors with
    | true =>
      rw [hdestroys, if_pos rfl] at htargets
      rw [htargets]
      exact Or.inl (hactive.destroyDragActor (hone hdestroys))
    | false =>
      rw [hdestroys, if_neg Bool.false_ne_true] at htargets
      exact hactive.handleDragOver htargets.1 htargets.2

theorem Idle.takeDragActor (h : Idle s) (halive : 0 ∉ s.destroyed)
    (source : Option DragActorSource) : ∃ a, Dragging ({ s with
      pushes := s.pushes + 1, grab := true, dragBegins := s.dragBegins + 1 }.takeDragActor source) a := by
  have hreleased : s.pushes = s.pops := by
    have hpushes := h.released
    rwa [h.ended.2.1] at hpushes
  have hpushed : s.pushes + 1 = s.pops + 1 := congrArg (· + 1) hreleased
  have hcount : s.dragBegins + 1 = s.dragEnds + 1 := congrArg (· + 1) h.ended.1.symm
  cases source with
  | none =>
    exact ⟨0, ⟨⟨h.used, hpushed, h.bound⟩, hcount, rfl, rfl, halive, Nat.zero_le _⟩,
      h.animationInProgress, h.easing⟩
  | some source =>
    refine ⟨s.created + 1, ⟨⟨h.used, hpushed, fun b hb => ?_⟩, hcount, rfl, rfl, ?_, Nat.le_refl _⟩,
      h.animationInProgress, h.easing⟩
    · exact Nat.le_succ_of_le (h.bound b hb)
    · exact fun hmem => Nat.not_succ_le_self _ (h.bound _ hmem)

theorem Dragging.setProperty (h : Dragging s a) (p : Property) : Dragging (s.setProperty a p) a := by
  obtain ⟨l, hset⟩ := h.setProperty_eq p
  rw [hset]
  exact h.scaling l

theorem Dragging.withDragActor (h : Dragging s a) {f : State → ℕ → State}
    (hf : Dragging (f s a) a) : Dragging (s.withDragActor f) a := by
  rwa [withDragActor_of_some h.dragActor]

theorem Dragging.scaleDown (h : Dragging s a) (scales : Bool) : Dragging (s.scaleDown a scales) a := by
  have hscaled := h.setProperty .scale
  rw [State.scaleDown]
  cases scales with
  | true =>
    have hadded := hscaled.scaling (a :: (s.setProperty a .scale).scaling)
    exact hadded.withDragActor hadded
  | false => exact hscaled.updateActorPosition.withDragActor hscaled.updateActorPosition

theorem Idle.gestureRecognized (h : Idle s) (halive : 0 ∉ s.destroyed) (g : Gesture) :
    Inv (s.gestureRecognized g) := by
  rw [State.gestureRecognized]
  dsimp only
  split
  · obtain ⟨a, hbegun⟩ := h.takeDragActor halive g.source
    refine Or.inr (Or.inl ⟨a, hbegun.withDragActor ?_⟩)
    generalize State.takeDragActor _ _ = s' at hbegun ⊢
    have hsize : Dragging (if g.source.isSome then s' else s'.setProperty a .scale) a := by
      split
      · exact hbegun
      · exact hbegun.setProperty .scale
    refine hsize.withDragActor ?_
    generalize (if g.source.isSome then s' else s'.setProperty a .scale) = s' at hsize ⊢
    have hopacity : Dragging
        (if s'.params.dragActorOpacity then s'.setProperty a .opacity else s') a := by
      split
      · exact hsize.setProperty .opacity
      · exact hsize
    refine hopacity.withDragActor ?_
    generalize (if s'.params.dragActorOpacity then s'.setProperty a .opacity else s') = s'
      at hopacity ⊢
    have hposition := hopacity.setProperty .position
    split
    · exact hposition.withDragActor (hposition.scaleDown g.scales)
    · exact hposition
  · refine Or.inl ⟨⟨⟨h.used, ?_, h.bound⟩, h.ended, h.animationInProgress, h.dragOrigParent⟩, h.easing⟩
    have hpushes := h.released
    rw [h.ended.2.1] at hpushes ⊢
    exact congrArg (· + 1) hpushes

section

variable (h : Inv s)
include h

theorem Inv.destroyOther {b : ℕ} (hcreated : b ≤ s.created)
    (hother : s.dragActor ≠ some b) : Inv (s.destroyOther b) := by
  have hgone : s.easing.any (·.1 = b) = false → Inv (s.removeActor b) → Inv (s.destroyOther b) := by
    intro hany hinv
    rw [State.destroyOther, hany]
    rwa [if_neg fun hboth => Bool.false_ne_true hboth.1]
  obtain h | ⟨a, h⟩ | ⟨a, p, h⟩ := h
  · apply hgone (by rw [h.easing]; rfl)
    refine Or.inl ⟨h.toDone.removeActor hcreated, ?_⟩
    show s.easing.filter _ = []
    rw [h.easing]
    rfl
  · have hne : a ≠ b := fun heq => hother (heq ▸ h.dragActor)
    apply hgone (by rw [h.easing]; rfl)
    refine Or.inr (Or.inl ⟨a, ⟨?_, h.count, h.grab, h.dragActor, ?_, h.created⟩,
      h.animationInProgress, ?_⟩)
    · exact h.toSound.removeActor hcreated
    · exact List.not_mem_cons_of_ne_of_not_mem hne h.alive
    · show s.easing.filter _ = []
      rw [h.easing]
      rfl
  · have hne : a ≠ b := fun heq => hother (heq ▸ h.dragActor)
    apply hgone (by rw [h.easing]; simpa using hne)
    refine Or.inr (Or.inr ⟨a, p, ⟨?_, h.count, h.grab, h.dragActor, ?_, h.created⟩,
      h.animationInProgress, ?_⟩)
    · exact h.toSound.removeActor hcreated
    · exact List.not_mem_cons_of_ne_of_not_mem hne h.alive
    · show s.easing.filter _ = [(a, p)]
      rw [h.easing]
      simpa using hne

theorem Inv.destroySource : Inv { s with dragActorSource := none } := by
  obtain h | ⟨a, h⟩ | ⟨a, p, h⟩ := h
  · exact Or.inl ⟨⟨⟨h.used, h.released, h.bound⟩, h.ended, h.animationInProgress, h.dragOrigParent⟩,
      h.easing⟩
  · exact Or.inr (Or.inl ⟨a, ⟨⟨h.used, h.released, h.bound⟩, h.count, h.grab, h.dragActor, h.alive,
      h.created⟩, h.animationInProgress, h.easing⟩)
  · exact Or.inr (Or.inr ⟨a, p, ⟨⟨h.used, h.released, h.bound⟩, h.count, h.grab, h.dragActor, h.alive,
      h.created⟩, h.animationInProgress, h.easing⟩)

theorem Inv.destroyOrigParent : Inv { s with dragOrigParent := false } := by
  obtain h | ⟨a, h⟩ | ⟨a, p, h⟩ := h
  · exact Or.inl ⟨⟨⟨h.used, h.released, h.bound⟩, h.ended, h.animationInProgress, rfl⟩, h.easing⟩
  · exact Or.inr (Or.inl ⟨a, ⟨⟨h.used, h.released, h.bound⟩, h.count, h.grab, h.dragActor, h.alive,
      h.created⟩, h.animationInProgress, h.easing⟩)
  · exact Or.inr (Or.inr ⟨a, p, ⟨⟨h.used, h.released, h.bound⟩, h.count, h.grab, h.dragActor, h.alive,
      h.created⟩, h.animationInProgress, h.easing⟩)

theorem Inv.ending_of_mem (hmem : (a, p) ∈ s.easing) : Ending s a p := by
  obtain h | ⟨b, h⟩ | ⟨b, q, h⟩ := h
  · rw [h.easing] at hmem
    cases hmem
  · rw [h.easing] at hmem
    cases hmem
  · rw [h.easing] at hmem
    obtain ⟨rfl, rfl⟩ := Prod.mk.inj (List.mem_singleton.mp hmem)
    exact h

theorem Inv.active_of_updateHoverId (hpending : s.updateHoverId = true) :
    ∃ a, Active s a := by
  obtain h | ⟨a, h⟩ | ⟨a, p, h⟩ := h
  · have hnone := h.ended.2.2.1
    rw [hpending] at hnone
    cases hnone
  · exact ⟨a, Or.inl h⟩
  · exact ⟨a, Or.inr ⟨p, h⟩⟩

theorem Inv.step {e : Event} (hcareful : Careful s e) (hstep : Dnd.step s e = some t) :
    Inv t := by
  cases e with
  | gestureRecognized g =>
    obtain ⟨⟨hgrab, halive⟩, heq⟩ := Option.ite_none_right_eq_some.mp hstep
    cases heq
    obtain h | ⟨a, h⟩ | ⟨a, p, h⟩ := h
    · exact h.gestureRecognized halive g
    · exact absurd (hgrab.symm.trans h.grab) Bool.false_ne_true
    · exact absurd (hgrab.symm.trans h.grab) Bool.false_ne_true
  | motion =>
    obtain ⟨hgrab, heq⟩ := Option.ite_none_right_eq_some.mp hstep
    cases heq
    obtain ⟨a, ha⟩ := h.active_of_grab hgrab
    exact ha.updateDragPosition hcareful
  | release d =>
    obtain ⟨hgrab, heq⟩ := Option.ite_none_right_eq_some.mp hstep
    cases heq
    obtain ⟨a, ha⟩ := h.active_of_grab hgrab
    exact ha.dragActorDropped hcareful
  | escape transition =>
    obtain ⟨hgrab, heq⟩ := Option.ite_none_right_eq_some.mp hstep
    cases heq
    obtain ⟨a, ha | ⟨p, ha⟩⟩ := h.active_of_grab hgrab
    · exact ha.cancelDrag hcareful.2
    · exact absurd (hcareful.1.symm.trans ha.animationInProgress) Bool.false_ne_true
  | updateDragHover monitors targets =>
    obtain ⟨hpending, heq⟩ := Option.ite_none_right_eq_some.mp hstep
    cases heq
    obtain ⟨a, ha⟩ := h.active_of_updateHoverId hpending
    exact ha.updateDragHover hcareful
  | animationStopped a p =>
    obtain ⟨hmem, heq⟩ := Option.ite_none_right_eq_some.mp hstep
    cases heq
    exact Or.inl ((h.ending_of_mem hmem).stopped.onAnimationComplete hcareful)
  | scaleFrame a =>
    obtain ⟨-, heq⟩ := Option.ite_none_right_eq_some.mp hstep
    cases heq
    exact h.updateActorPosition hcareful
  | scaleStopped a isFinished =>
    obtain ⟨-, heq⟩ := Option.ite_none_right_eq_some.mp hstep
    cases heq
    have hscaled := h.scaling (s.scaling.erase a)
    split
    · next hfinished => exact hscaled.updateActorPosition (hcareful hfinished)
    · exact hscaled
  | destroyDragActor =>
    rw [Dnd.step] at hstep
    split at hstep
    · cases hstep
    · next a ha =>
      cases hstep
      exact Or.inl ((h.active_of_dragActor ha).destroyDragActor hcareful)
  | destroySource =>
    rw [Dnd.step] at hstep
    split at hstep
    · cases hstep
      exact h.destroySource
    · cases hstep
  | destroyOrigParent =>
    obtain ⟨-, heq⟩ := Option.ite_none_right_eq_some.mp hstep
    cases heq
    exact h.destroyOrigParent
  | destroyOther b =>
    obtain ⟨⟨hcreated, -, hother⟩, heq⟩ := Option.ite_none_right_eq_some.mp hstep
    cases heq
    exact h.destroyOther hcreated hother

end

/-- **Each drag ends once.** What a drag owes holds in every state of a run of careful events. -/
theorem run_dragEnd_once (params : Params) (es : List Event)
    (hcareful : Runs.Allowed Dnd.step Careful (State.new params) es) :
    Runs.Always Dnd.step Law (State.new params) es :=
  Runs.Allowed.always (I := Inv) (Or.inl (Idle.new params)) (fun _ h => h.law)
    (fun _ _ _ h hok hstep => h.step hok hstep) hcareful

def plain : Params := ⟨false, false, false, true⟩

def ownActor : Gesture := ⟨true, some .actor, false, false⟩

/-- A drop is refused and the actor snaps back, and another one is accepted. -/
theorem run_dragEnd_once_twice : let es : List Event := [.gestureRecognized ownActor, .motion,
      .updateDragHover [⟨false, .cont⟩] [⟨false, .noDrop⟩],
      .release ⟨[⟨false, .cont⟩], [⟨.leaves, .refuses⟩, ⟨.leaves, .throws⟩], true, some .position⟩,
      .animationStopped 1 .position, .gestureRecognized ownActor, .motion,
      .release ⟨[], [⟨.takes, .accepts⟩], true, none⟩]
    Runs.Always Dnd.step Law (State.new plain) es :=
  run_dragEnd_once plain _ (by decide)

def cancelled : List Event :=
  [.gestureRecognized ownActor, .escape (some .position), .animationStopped 1 .position]

theorem not_run_dragEnd_once : (Runs.run Dnd.step (State.new plain) cancelled).isSome = true ∧
    ¬ Runs.Always Dnd.step Law (State.new plain) cancelled := by
  have hends : (Runs.run Dnd.step (State.new plain) cancelled).map
      (fun s => (s.dragBegins, s.dragEnds)) = some (1, 2) := by
    decide
  obtain ⟨s, hrun, hcounts⟩ := Option.map_eq_some_iff.mp hends
  obtain ⟨hbegins, htwice⟩ := Prod.mk.inj hcounts
  refine ⟨Option.isSome_iff_exists.mpr ⟨s, hrun⟩, fun halways => ?_⟩
  obtain hover | hgoes := (halways.last hrun).once
  · have hequal := hover.1
    omega
  · have hone := hgoes.1
    omega

end Runs

end Dnd
