import GnomeShellMobile.InputMethod.Method

/-!
# InputMethod — whether the copies agree

* `Agrees`: the preedit text, the capabilities, the timer and the handlers as they should be.
* `Careful`: a step that loses none of them.
* `agrees_step`: a step keeps `Agrees` if and only if it is careful; `run_agrees_iff`: so it holds
  all along a run if and only if every step of the run is careful.
-/

namespace InputMethod

open State

variable {s s' : State}

variable (s)

def State.Shows : Prop := ∃ text, s.shown = some text ∧ text ≠ ""

def State.CapabilitiesFollow : Prop :=
  ∀ c, s.context = some c → (c.capabilities.surroundingText = true ↔ s.surroundingText ≠ none)

structure Agrees : Prop where
  preedit : s.hasPreedit = true ↔ s.Shows
  capabilities : s.CapabilitiesFollow
  hidePanel : s.hidePanelPending = true → s.currentFocus = none
  handlers : s.visibilityHandlers.length ≤ 1

/-- A step that `_clear`, `vfunc_reset` and `vfunc_set_surrounding` are prepared for: the context is
lost only while there is no preedit text, the surrounding text is dropped only while there is none or
no context, and a context is created only if there was none before. -/
def Careful : Event → Prop
  | .created _ => s.visibilityHandlers = []
  | .createFailed _ => s.hasPreedit = false
  | .lost => s.hasPreedit = false
  | .reset => s.context = none ∨ s.surroundingText = none
  | .setSurrounding none _ _ => s.context = none ∨ s.surroundingText = none
  | _ => True

instance : DecidablePred (Careful s) := fun e => by
  unfold Careful
  split <;> infer_instance

variable {s}

theorem Agrees.new (keyboardVisible : Bool) : Agrees (State.new keyboardVisible) where
  preedit := by simp [State.new, hasPreedit, Shows]
  capabilities := by simp [State.new, CapabilitiesFollow]
  hidePanel := Bool.noConfusion
  handlers := Nat.zero_le 1

/-! ## Capabilities -/

theorem capabilitiesFollow_updateCapabilities : s.updateCapabilities.CapabilitiesFollow := by
  intro c hc
  obtain ⟨c', -, rfl⟩ := Option.map_eq_some_iff.mp hc
  exact Option.isSome_iff_ne_none

theorem State.CapabilitiesFollow.onContext {f : Context → Context} (h : s.CapabilitiesFollow)
    (hf : ∀ c, (f c).capabilities = c.capabilities) : (s.onContext f).CapabilitiesFollow := by
  intro c hc
  obtain ⟨c', hc', rfl⟩ := Option.map_eq_some_iff.mp hc
  rw [hf]
  exact h c' hc'

theorem State.CapabilitiesFollow.update (h : s.CapabilitiesFollow) : s.update.CapabilitiesFollow := by
  rw [State.update]
  split
  · exact h
  · have hfollow := capabilitiesFollow_updateCapabilities (s := s)
    dsimp only
    split
    · refine hfollow.onContext ?_
      exact fun _ => rfl
    · refine CapabilitiesFollow.onContext (hfollow.onContext ?_) ?_
      · exact fun _ => rfl
      · exact fun _ => rfl

theorem update_eq (s : State) : s.update = { s with context := s.update.context } := by
  rw [State.update]
  split
  · rfl
  · dsimp only
    split <;> rfl

theorem capabilitiesFollow_none (h : s.CapabilitiesFollow) (hcontext : s'.context = s.context)
    (htext : s'.surroundingText = none) :
    s'.CapabilitiesFollow ↔ s.context = none ∨ s.surroundingText = none := by
  constructor
  · intro h'
    cases hc : s.context with
    | none => exact .inl rfl
    | some c =>
      refine .inr (Classical.byContradiction fun hsome => ?_)
      have hset := (h c hc).mpr hsome
      exact (h' c (hcontext.trans hc)).mp hset htext
  · rintro (hnone | hnone)
    · intro c hc
      rw [hcontext, hnone] at hc
      cases hc
    · intro c hc
      rw [htext, h c (hcontext.symm.trans hc), hnone]

/-! ## Preedit text -/

theorem hasPreedit_iff : s.hasPreedit = true ↔
    s.preeditVisible = true ∧ ∃ text, s.preeditStr = some text ∧ text ≠ "" := by
  cases hstr : s.preeditStr with
  | none => simp [hasPreedit, hstr]
  | some text => simp [hasPreedit, hstr]

theorem preedit_of_none (hshown : s.shown = none)
    (hkept : s.preeditVisible = false ∨ s.preeditStr = none) : s.hasPreedit = true ↔ s.Shows := by
  refine iff_of_false ?_ ?_
  · rw [hasPreedit_iff]
    rintro ⟨hvisible, text, htext, -⟩
    obtain hkept | hkept := hkept
    · rw [hkept] at hvisible
      cases hvisible
    · rw [hkept] at htext
      cases htext
  · rintro ⟨text, htext, -⟩
    rw [hshown] at htext
    cases htext

theorem preedit_of_shown (hvisible : s.preeditVisible = true) (hshown : s.shown = s.preeditStr) :
    s.hasPreedit = true ↔ s.Shows := by
  rw [hasPreedit_iff, Shows, hshown]
  exact and_iff_right hvisible

theorem preedit_onUpdatePreeditText {text : Option String} {pos : ℕ} {visible : Bool} {mode : ℕ}
    (h : s.hasPreedit = true ↔ s.Shows) :
    (s.onUpdatePreeditText text pos visible mode).hasPreedit = true ↔
      (s.onUpdatePreeditText text pos visible mode).Shows := by
  cases text with
  | none => exact h
  | some text =>
    cases visible with
    | true => exact preedit_of_shown rfl rfl
    | false =>
      cases hvisible : s.preeditVisible with
      | true =>
        refine preedit_of_none ?_ (.inl rfl)
        simp [onUpdatePreeditText, hvisible, setPreeditText]
      | false =>
        -- Nothing was visible, so nothing is shown that would have to be taken away.
        have hnone : ¬ s.Shows := fun hshows => by
          have hvisible' := (hasPreedit_iff.mp (h.mpr hshows)).1
          rw [hvisible] at hvisible'
          cases hvisible'
        refine iff_of_false ?_ ?_
        · simp [onUpdatePreeditText, hasPreedit]
        · simpa [onUpdatePreeditText, hvisible, Shows] using hnone

theorem preedit_focusOut (h : s.hasPreedit = true ↔ s.Shows) :
    s.focusOut.hasPreedit = true ↔ s.focusOut.Shows := by
  by_cases hkept : (truthy s.preeditStr && s.preeditVisible) = true
  · refine preedit_of_none ?_ (.inr ?_)
    all_goals simp only [focusOut, fullReset, onContext, hkept, if_true, setPreeditText]
  · -- The text that is kept is not seen, so the client shows none either.
    have hsame : s.focusOut.hasPreedit = s.hasPreedit ∧ s.focusOut.shown = s.shown := by
      simp only [focusOut, fullReset, onContext, hkept, Bool.false_eq_true, if_false, hasPreedit,
        and_self]
    rw [hsame.1, Shows, hsame.2]
    exact h

theorem preedit_clear (h : s.hasPreedit = true ↔ s.Shows) :
    (s.clear.hasPreedit = true ↔ s.clear.Shows) ↔ s.hasPreedit = false := by
  have hclear : ¬ s.clear.hasPreedit = true := by simp [clear, hasPreedit]
  have hshows : s.clear.Shows ↔ s.Shows := Iff.rfl
  rw [hshows, ← h, iff_false_left hclear, Bool.not_eq_true]

/-! ## Steps -/

theorem onUpdatePreeditText_eq (s : State) (text : Option String) (pos : ℕ) (visible : Bool)
    (mode : ℕ) : s.onUpdatePreeditText text pos visible mode =
      { s with
        shown := (s.onUpdatePreeditText text pos visible mode).shown
        preeditStr := (s.onUpdatePreeditText text pos visible mode).preeditStr
        preeditPos := (s.onUpdatePreeditText text pos visible mode).preeditPos
        preeditAnchor := (s.onUpdatePreeditText text pos visible mode).preeditAnchor
        preeditVisible := (s.onUpdatePreeditText text pos visible mode).preeditVisible
        preeditCommitMode := (s.onUpdatePreeditText text pos visible mode).preeditCommitMode } := by
  cases text with
  | none => rfl
  | some text =>
    cases visible with
    | true => rfl
    | false =>
      simp only [onUpdatePreeditText, Bool.false_eq_true, if_false]
      split <;> rfl

theorem focusIn_eq (s : State) (focus : ℕ) : s.focusIn focus =
      { s with
        currentFocus := some focus
        hidePanelPending := false
        context := (s.focusIn focus).context } := by
  simp only [focusIn]
  rw [update_eq]
  rfl

theorem focusOut_eq (s : State) : s.focusOut =
      { s with
        currentFocus := none
        hidePanelPending := true
        context := s.focusOut.context
        shown := s.focusOut.shown
        preeditStr := s.focusOut.preeditStr } := by
  simp only [focusOut]
  split <;> rfl

theorem agrees_clear (h : Agrees s) : Agrees s.clear ↔ s.hasPreedit = false := by
  constructor
  · exact fun h' => (preedit_clear h.preedit).mp h'.preedit
  · intro hnone
    exact {
      preedit := (preedit_clear h.preedit).mpr hnone
      capabilities := by simp [CapabilitiesFollow, clear]
      hidePanel := h.hidePanel
      handlers := Nat.le_trans (List.length_filter_le _ _) h.handlers }

theorem visibilityHandlers_foldl (handlers : List Owner) (s : State) :
    handlers.foldl (fun s _ => s.updateCapabilities) s =
      if handlers = [] then s else s.updateCapabilities := by
  induction handlers generalizing s with
  | nil => rfl
  | cons owner handlers ih =>
    rw [List.foldl_cons, ih]
    split
    · rfl
    · simp [updateCapabilities, onContext, State.capabilities, Function.comp_def]

/-! ### One step -/

section

variable (h : Agrees s)
include h

theorem agrees_onCreated : Agrees s.onCreated ↔ s.visibilityHandlers = [] := by
  constructor
  · intro h'
    have hlength : (s.visibilityHandlers ++ [Owner.globalThis]).length ≤ 1 := h'.handlers
    rw [List.length_append] at hlength
    exact List.eq_nil_of_length_eq_zero (by simpa using hlength)
  · intro hnone
    refine ⟨h.preedit, capabilitiesFollow_updateCapabilities, h.hidePanel, ?_⟩
    show (s.visibilityHandlers ++ [Owner.globalThis]).length ≤ 1
    rw [hnone]
    exact Nat.le_refl 1

theorem Agrees.focusIn (focus : ℕ) : Agrees (s.focusIn focus) := by
  have hfollow : (s.focusIn focus).CapabilitiesFollow := by
    have hupdate : (State.update { s with currentFocus := some focus }).CapabilitiesFollow :=
      CapabilitiesFollow.update h.capabilities
    exact CapabilitiesFollow.onContext hupdate fun _ => rfl
  rw [focusIn_eq] at hfollow ⊢
  exact ⟨h.preedit, hfollow, Bool.noConfusion, h.handlers⟩

theorem Agrees.focusOut : Agrees s.focusOut := by
  have hpreedit := preedit_focusOut h.preedit
  have hfollow : s.focusOut.CapabilitiesFollow := by
    have hreset : (State.onContext (State.fullReset { s with currentFocus := none })
        fun c => { c with focused := false }).CapabilitiesFollow := by
      refine CapabilitiesFollow.onContext (CapabilitiesFollow.onContext
        (s := { s with currentFocus := none }) h.capabilities ?_) ?_
      · exact fun _ => rfl
      · exact fun _ => rfl
    rw [State.focusOut]
    dsimp only
    split
    · exact hreset
    · exact hreset
  rw [focusOut_eq] at hpreedit hfollow ⊢
  exact ⟨hpreedit, hfollow, fun _ => rfl, h.handlers⟩

theorem Agrees.setCursorLocation (rect : Rect) : Agrees (s.setCursorLocation rect) := by
  rw [State.setCursorLocation]
  split
  · exact h
  · refine ⟨h.preedit, ?_, h.hidePanel, h.handlers⟩
    exact CapabilitiesFollow.onContext (s := { s with cursorRect := some rect }) h.capabilities
      fun _ => rfl

theorem agrees_reset :
    Agrees s.reset ↔ s.context = none ∨ s.surroundingText = none := by
  have hfollow : s.reset.CapabilitiesFollow ↔ s.context = none ∨ s.surroundingText = none :=
    capabilitiesFollow_none h.capabilities rfl rfl
  constructor
  · exact fun h' => hfollow.mp h'.capabilities
  · intro hcareful
    exact ⟨preedit_of_none rfl (.inr rfl), hfollow.mpr hcareful, h.hidePanel, h.handlers⟩

theorem agrees_setSurrounding_none (cursor anchor : ℕ) :
    Agrees (s.setSurrounding none cursor anchor) ↔ s.context = none ∨ s.surroundingText = none := by
  have hfollow : (s.setSurrounding none cursor anchor).CapabilitiesFollow ↔
      s.context = none ∨ s.surroundingText = none :=
    capabilitiesFollow_none h.capabilities rfl rfl
  constructor
  · exact fun h' => hfollow.mp h'.capabilities
  · exact fun hcareful => ⟨h.preedit, hfollow.mpr hcareful, h.hidePanel, h.handlers⟩

theorem Agrees.setSurrounding_some (text : String) (cursor anchor : ℕ) :
    Agrees (s.setSurrounding (some text) cursor anchor) := by
  refine ⟨?_, ?_, ?_, ?_⟩
  all_goals simp only [setSurrounding]
  all_goals split
  · exact h.preedit
  · exact h.preedit
  · exact capabilitiesFollow_updateCapabilities.onContext fun _ => rfl
  · next hsame =>
    have hsome : s.surroundingText ≠ none := by
      simpa [Option.isSome_iff_ne_none] using hsame
    refine CapabilitiesFollow.onContext ?_ ?_
    · exact fun c hc => iff_of_true ((h.capabilities c hc).mpr hsome) (Option.some_ne_none text)
    · exact fun _ => rfl
  · exact h.hidePanel
  · exact h.hidePanel
  · exact h.handlers
  · exact h.handlers

theorem agrees_step {e : Event} (hstep : step s e = some s') :
    Agrees s' ↔ Careful s e := by
  cases e with
  | connected =>
    cases hstep
    exact iff_of_true ⟨h.preedit, h.capabilities, h.hidePanel, h.handlers⟩ trivial
  | created p =>
    simp only [step] at hstep
    split at hstep
    · cases hstep
      have h' : Agrees { s with pending := s.pending.erase p } :=
        ⟨h.preedit, h.capabilities, h.hidePanel, h.handlers⟩
      exact agrees_onCreated h'
    · cases hstep
  | createFailed p =>
    simp only [step] at hstep
    split at hstep
    · cases hstep
      have h' : Agrees { s with pending := s.pending.erase p } :=
        ⟨h.preedit, h.capabilities, h.hidePanel, h.handlers⟩
      exact agrees_clear h'
    · cases hstep
  | lost =>
    cases hstep
    exact agrees_clear h
  | updatePreeditText text pos visible mode =>
    cases hstep
    have hpreedit : (s.onUpdatePreeditText text pos visible mode).hasPreedit = true ↔
        (s.onUpdatePreeditText text pos visible mode).Shows := preedit_onUpdatePreeditText h.preedit
    rw [onUpdatePreeditText_eq] at hpreedit ⊢
    exact iff_of_true ⟨hpreedit, h.capabilities, h.hidePanel, h.handlers⟩ trivial
  | showPreeditText =>
    cases hstep
    exact iff_of_true ⟨preedit_of_shown rfl rfl, h.capabilities, h.hidePanel, h.handlers⟩ trivial
  | hidePreeditText =>
    cases hstep
    exact iff_of_true ⟨preedit_of_none rfl (.inl rfl), h.capabilities, h.hidePanel, h.handlers⟩ trivial
  | focusIn focus =>
    simp only [step] at hstep
    split at hstep
    · cases hstep
      exact iff_of_true (h.focusIn focus) trivial
    · cases hstep
  | focusOut =>
    simp only [step] at hstep
    split at hstep
    · cases hstep
      exact iff_of_true h.focusOut trivial
    · cases hstep
  | hidePanel =>
    simp only [step] at hstep
    split at hstep
    · cases hstep
      exact iff_of_true ⟨h.preedit, h.capabilities, Bool.noConfusion, h.handlers⟩ trivial
    · cases hstep
  | reset =>
    cases hstep
    exact agrees_reset h
  | setCursorLocation rect =>
    cases hstep
    exact iff_of_true (h.setCursorLocation rect) trivial
  | setSurrounding text cursor anchor =>
    cases hstep
    cases text with
    | none => exact agrees_setSurrounding_none h cursor anchor
    | some text => exact iff_of_true (h.setSurrounding_some text cursor anchor) trivial
  | updateContentHints hints =>
    cases hstep
    exact iff_of_true ⟨h.preedit, h.capabilities.onContext fun _ => rfl, h.hidePanel, h.handlers⟩ trivial
  | updateContentPurpose purpose =>
    cases hstep
    exact iff_of_true ⟨h.preedit, h.capabilities.onContext fun _ => rfl, h.hidePanel, h.handlers⟩ trivial
  | canShowPreedit =>
    cases hstep
    exact iff_of_true
      ⟨h.preedit, capabilitiesFollow_updateCapabilities, h.hidePanel, h.handlers⟩ trivial
  | visibilityChanged visible =>
    cases hstep
    rw [visibilityChanged, visibilityHandlers_foldl]
    split
    · exact iff_of_true ⟨h.preedit, h.capabilities, h.hidePanel, h.handlers⟩ trivial
    · exact iff_of_true
        ⟨h.preedit, capabilitiesFollow_updateCapabilities, h.hidePanel, h.handlers⟩ trivial

end

/-- Along a run the copies agree if and only if each step of the run is careful. -/
theorem run_agrees_iff (keyboardVisible : Bool) (es : List Event)
    (hrun : Runs.run step (State.new keyboardVisible) es = some s) :
    Runs.Always step Agrees (State.new keyboardVisible) es ↔
      Runs.Allowed step Careful (State.new keyboardVisible) es :=
  Runs.always_iff_allowed (Agrees.new keyboardVisible) (fun _ _ _ h hstep => agrees_step h hstep) hrun

theorem run_agrees_iff_typed :
    let es : List Event := [.connected, .created 0, .focusIn 1, .setSurrounding (some "") 0 0,
      .updatePreeditText (some "ab") 2 true 0, .visibilityChanged true, .hidePreeditText, .focusOut,
      .hidePanel]
    ∃ s, Runs.run step (State.new false) es = some s ∧ Runs.Always step Agrees (State.new false) es := by
  intro es
  have hsome : (Runs.run step (State.new false) es).isSome = true := by decide
  obtain ⟨s, hrun⟩ := Option.isSome_iff_exists.mp hsome
  refine ⟨s, hrun, (run_agrees_iff false es hrun).mpr ?_⟩
  decide

def textGone : List Event :=
  [.connected, .created 0, .focusIn 1, .setSurrounding (some "a") 1 1, .setSurrounding none 0 0]

/-- Then the context still has the capability. -/
theorem not_run_agrees : ¬ ∀ (keyboardVisible : Bool) (es : List Event) (s : State),
      Runs.run step (State.new keyboardVisible) es = some s →
      Runs.Always step Agrees (State.new keyboardVisible) es := by
  intro h
  have hsome : (Runs.run step (State.new false) textGone).isSome = true := by decide
  obtain ⟨s, hrun⟩ := Option.isSome_iff_exists.mp hsome
  have hallowed := (Runs.always_iff_allowed (Agrees.new false)
    (fun _ _ _ h hstep => agrees_step h hstep) hrun).mp (h false textGone s hrun)
  exact absurd hallowed (by decide)

end InputMethod
