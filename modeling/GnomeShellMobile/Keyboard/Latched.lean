import GnomeShellMobile.Keyboard.Levels

/-!
# Keyboard — when a level is latched

* `Sound`: what is claimed of the levels and the latch in a state.
* `Inv`: what holds in every state, sound or not.
* `settle_setActiveLevel`, `setLatched_caps`: what the two functions come to that every handler uses.
* `Careful`: a step that rebuilds the keys, latches or reads the text where nothing speaks against it.
* `sound_step`, `run_sound_iff`: a run is sound as long as its steps are careful, and no longer.
-/

namespace Keyboard.Levels

open State
open InputMethod (ContentHint ContentPurpose)

variable {files : String → Option KeyboardModel} {s t : State} {level : String}

def State.OnCapsLock (s : State) : Prop :=
  s.currentPage = some "shift" ∧ ∃ page, s.layers.get? "shift" = some page ∧
    ∀ key ∈ page.shiftKeys, key.iconName = "osk-caps-lock-symbolic"

structure Sound (s : State) : Prop where
  known : ∀ call ∈ s.calls, call.2 = true
  latched : s.latched = true → s.OnCapsLock
  left : s.left = false
  lowercased : s.lowercased = true → s.currentPage = some "default"

def Closed (layers : Dict String Page) : Prop :=
  ∀ level page, layers.get? level = some page → ∀ l ∈ page.switches, layers.has l

/-- As long as every call named a level of the layout, there is a default page, and a current one. -/
structure Paged (s : State) : Prop where
  closed : Closed s.layers
  page : (∀ call ∈ s.calls, call.2 = true) →
    s.layers.has "default" ∧ ∃ level, s.currentPage = some level ∧ s.layers.has level

structure Inv (s : State) : Prop where
  paged : Paged s
  lowercased : s.lowercased = true → .lowercase ∈ s.contentHint

/-! ## The pages of a layout -/

theorem has_set (layers : Dict String Page) (level level' : String) (page : Page) :
    (layers.set level page).has level' ↔ level' = level ∨ layers.has level' := by
  rw [Dict.has_iff, Dict.has_iff, Dict.get?_set]
  by_cases h : level' = level <;> simp [h]

/-- Each level of the file has a page, and only these. Induction on the levels. -/
theorem has_foldl (levels : List LevelModel) (layers : Dict String Page) :
    (levels.foldl (fun layers l => layers.set l.level l.page) layers).has level ↔
      layers.has level ∨ level ∈ levels.map LevelModel.level := by
  induction levels generalizing layers with
  | nil => simp
  | cons l levels ih =>
    rw [List.foldl_cons, ih, has_set, List.map_cons, List.mem_cons, or_assoc, or_left_comm]

/-- Each page is that of a level of the file. Induction on the levels. -/
theorem page_of_foldl (levels : List LevelModel) (layers : Dict String Page) {page : Page}
    (h : (levels.foldl (fun layers l => layers.set l.level l.page) layers).get? level = some page) :
    layers.get? level = some page ∨ ∃ l ∈ levels, l.page = page := by
  induction levels generalizing layers with
  | nil => exact .inl h
  | cons l levels ih =>
    obtain h | ⟨l', hl', heq⟩ := ih (layers.set l.level l.page) h
    · rw [Dict.get?_set] at h
      split at h
      · exact .inr ⟨l, List.mem_cons_self, Option.some.inj h⟩
      · exact .inl h
    · exact .inr ⟨l', List.mem_cons_of_mem l hl', heq⟩

theorem KeyboardModel.closed_layers (model : KeyboardModel) : Closed model.layers := by
  intro level page hpage l hl
  obtain hempty | ⟨lm, hlm, rfl⟩ := page_of_foldl model.levels Dict.empty hpage
  · cases hempty
  obtain ⟨key, hkey, rfl⟩ := List.mem_map.mp hl
  exact (has_foldl model.levels Dict.empty).mpr (.inr (model.switch lm hlm key hkey))

/-! ## What the latch leaves of the pages -/

def SameKeys (layers layers' : Dict String Page) : Prop :=
  ∀ level, (layers'.get? level).map Page.switches = (layers.get? level).map Page.switches

theorem SameKeys.has {layers layers' : Dict String Page} (h : SameKeys layers layers')
    (level : String) : layers'.has level ↔ layers.has level := by
  have hsome := congrArg Option.isSome (h level)
  rw [Option.isSome_map, Option.isSome_map] at hsome
  rw [Dict.has_iff, Dict.has_iff, ← Option.isSome_iff_exists, ← Option.isSome_iff_exists, hsome]

theorem Closed.of_sameKeys {layers layers' : Dict String Page} (hclosed : Closed layers)
    (h : SameKeys layers layers') : Closed layers' := by
  intro level page hpage l hl
  have hmap := h level
  rw [hpage, Option.map_some] at hmap
  obtain ⟨page', hpage', hswitches⟩ := Option.map_eq_some_iff.mp hmap.symm
  rw [h.has]
  exact hclosed level page' hpage' l (hswitches ▸ hl)

theorem setLatched_eq (s : State) (latched : Bool) : s.setLatched latched =
    { s with latched := latched, layers := (s.setLatched latched).layers } := by
  unfold setLatched setCurrentLevelLatched
  repeat' split
  all_goals rfl

theorem sameKeys_setLatched (s : State) (latched : Bool) :
    SameKeys s.layers (s.setLatched latched).layers := by
  intro level
  unfold setLatched setCurrentLevelLatched
  split
  · rfl
  · next current _ =>
    split
    · rfl
    · next page hpage =>
      have hcurrent : s.layers.get? current = some page := hpage
      rw [Dict.get?_set]
      split
      · next h =>
        rw [h, hcurrent]
        rfl
      · rfl

theorem onCapsLock_setLatched (hcurrent : s.currentPage = some "shift")
    (hhas : s.layers.has "shift") : (s.setLatched true).OnCapsLock := by
  obtain ⟨page, hpage⟩ := Dict.has_iff.mp hhas
  refine ⟨?_, ?_⟩
  · rw [setLatched_eq]
    exact hcurrent
  · have hlayers : (s.setLatched true).layers = s.layers.set "shift"
        { page with shiftKeys := page.shiftKeys.map fun _ =>
          { latched := true, iconName := "osk-caps-lock-symbolic" } } := by
      simp only [setLatched, setCurrentLevelLatched, hcurrent, hpage, if_true]
    refine ⟨_, by rw [hlayers, Dict.get?_set_self], fun key hkey => ?_⟩
    obtain ⟨_, -, rfl⟩ := List.mem_map.mp hkey
    rfl

theorem settle_ite (c : Prop) [Decidable c] (s : State) :
    settle (if c then .error s else .ok s) = s := by
  split
  · rfl
  · rfl

theorem settle_setActiveLevel (s : State) (level : String) : ∃ layers, SameKeys s.layers layers ∧
      (s.layers.has level → s.currentPage = some level → layers = s.layers) ∧
      settle (s.setActiveLevel level) =
        { s with
          calls := (level, decide (s.layers.has level)) :: s.calls
          currentPage := if s.layers.has level then some level else none
          latched := s.latched && decide (s.currentPage = none ∨
            s.currentPage = some level ∧ s.layers.has level)
          layers := layers } := by
  let called : State := { s with calls := (level, decide (s.layers.has level)) :: s.calls }
  by_cases hsame : s.currentPage = if s.layers.has level then some level else none
  · -- the page is current already, or there is none and there will be none
    refine ⟨s.layers, fun _ => rfl, fun _ _ => rfl, ?_⟩
    have hstays : s.currentPage = none ∨ s.currentPage = some level ∧ s.layers.has level := by
      by_cases hhas : s.layers.has level
      · rw [if_pos hhas] at hsame
        exact .inr ⟨hsame, hhas⟩
      · rw [if_neg hhas] at hsame
        exact .inl hsame
    have hok : s.setActiveLevel level = .ok called := by
      simp only [setActiveLevel, decide_eq_true_eq]
      exact if_pos hsame
    rw [hok, decide_eq_true hstays, Bool.and_true, ← hsame]
    rfl
  · by_cases hnone : s.currentPage = none
    · refine ⟨s.layers, fun _ => rfl, fun _ _ => rfl, ?_⟩
      simp only [setActiveLevel, decide_eq_true_eq]
      have hstays : s.currentPage = none ∨ s.currentPage = some level ∧ s.layers.has level :=
        .inl hnone
      rw [if_neg hsame, if_pos hnone, settle_ite, decide_eq_true hstays, Bool.and_true]
    · have hleaves : ¬ (s.currentPage = none ∨ s.currentPage = some level ∧ s.layers.has level) := by
        rintro (h | ⟨h, hhas⟩)
        · exact hnone h
        · exact hsame (by rw [if_pos hhas, h])
      refine ⟨(called.setLatched false).layers, sameKeys_setLatched called false, ?_, ?_⟩
      · intro hhas h
        exact absurd (.inr ⟨h, hhas⟩) hleaves
      · simp only [setActiveLevel, decide_eq_true_eq]
        rw [if_neg hsame, if_neg hnone, settle_ite, setLatched_eq, decide_eq_false hleaves,
          Bool.and_false]

theorem calls_settle (s : State) (level : String) : (settle (s.setActiveLevel level)).calls =
    (level, decide (s.layers.has level)) :: s.calls := by
  obtain ⟨layers, -, -, heq⟩ := settle_setActiveLevel s level
  rw [heq]

theorem left_settle (s : State) (level : String) :
    (settle (s.setActiveLevel level)).left = s.left := by
  obtain ⟨layers, -, -, heq⟩ := settle_setActiveLevel s level
  rw [heq]

theorem currentPage_settle (h : s.layers.has level) :
    (settle (s.setActiveLevel level)).currentPage = some level := by
  obtain ⟨layers, -, -, heq⟩ := settle_setActiveLevel s level
  rw [heq]
  exact if_pos h

/-! ## What the handlers come to -/

theorem updateLevelFromHints_cases (s : State) (userInput : Bool) :
    s.updateLevelFromHints userInput = s ∧ (s.latched = true ∨ .lowercase ∉ s.contentHint) ∨
    (∃ level, s.latched = false ∧ (level = "default" ∨
        level = "shift" ∧ s.layers.has "shift" ∧ .lowercase ∉ s.contentHint) ∧
      s.updateLevelFromHints userInput = settle (s.setActiveLevel level)) ∨
    s.updateLevelFromHints userInput = { s with surroundingTextId := true } ∧
      .lowercase ∉ s.contentHint := by
  unfold updateLevelFromHints
  by_cases hlatched : s.latched = true
  · exact .inl ⟨if_pos hlatched, .inl hlatched⟩
  have hunlatched : s.latched = false := by simpa using hlatched
  rw [if_neg hlatched]
  by_cases hlower : .lowercase ∈ s.contentHint
  · exact .inr (.inl ⟨"default", hunlatched, .inl rfl, if_pos hlower⟩)
  rw [if_neg hlower]
  by_cases hshift : s.layers.has "shift"
  · rw [if_neg (not_not_intro hshift)]
    split
    · exact .inr (.inl ⟨"shift", hunlatched, .inr ⟨rfl, hshift, hlower⟩, rfl⟩)
    · split
      · exact .inr (.inr ⟨rfl, hlower⟩)
      · split
        · exact .inr (.inl ⟨"default", hunlatched, .inl rfl, rfl⟩)
        · exact .inl ⟨rfl, .inr hlower⟩
  · rw [if_pos hshift]
    exact .inl ⟨rfl, .inr hlower⟩

def State.asks (s : State) (text : Option String) (cursor : ℕ) : Option Bool :=
  if isFirst text cursor then some true
  else capitalizes s.contentHint ((text.getD "").toList.take cursor)

theorem disconnect_eq (result : Except State State) :
    ∃ id, disconnect result = { settle result with surroundingTextId := id } := by
  cases result with
  | error s => exact ⟨s.surroundingTextId, rfl⟩
  | ok s => exact ⟨false, rfl⟩

theorem surroundingTextSet_eq (s : State) (text : Option String) (cursor : ℕ) :
    ∃ id, s.surroundingTextSet text cursor =
      { settle (s.setCapital (s.asks text cursor)) with surroundingTextId := id } := by
  unfold surroundingTextSet State.asks
  split
  · exact ⟨_, rfl⟩
  · exact disconnect_eq _

/-! ## What holds in every state -/

theorem paged_settle (hclosed : Closed s.layers)
    (hdefault : (∀ call ∈ s.calls, call.2 = true) → s.layers.has level → s.layers.has "default") :
    Paged (settle (s.setActiveLevel level)) := by
  obtain ⟨layers, hkeys, -, heq⟩ := settle_setActiveLevel s level
  rw [heq]
  refine ⟨hclosed.of_sameKeys hkeys, fun hknown => ?_⟩
  have hhas : s.layers.has level := by simpa using hknown _ List.mem_cons_self
  have hbefore : ∀ call ∈ s.calls, call.2 = true := fun call hcall =>
    hknown call (List.mem_cons_of_mem _ hcall)
  refine ⟨(hkeys.has "default").mpr (hdefault hbefore hhas), level, if_pos hhas, ?_⟩
  exact (hkeys.has level).mpr hhas

theorem Paged.setActiveLevel (h : Paged s) (level : String) :
    Paged (settle (s.setActiveLevel level)) :=
  paged_settle h.closed fun hknown _ => (h.page hknown).1

theorem Paged.updateLevelFromHints (h : Paged s) (userInput : Bool) :
    Paged (s.updateLevelFromHints userInput) := by
  obtain ⟨heq, -⟩ | ⟨level, -, -, heq⟩ | ⟨heq, -⟩ := updateLevelFromHints_cases s userInput
  · rw [heq]
    exact h
  · rw [heq]
    exact h.setActiveLevel level
  · rw [heq]
    exact ⟨h.closed, h.page⟩

theorem Paged.surroundingTextSet (h : Paged s) (text : Option String) (cursor : ℕ) :
    Paged (s.surroundingTextSet text cursor) := by
  obtain ⟨id, heq⟩ := surroundingTextSet_eq s text cursor
  have hkept : Paged (settle (s.setCapital (s.asks text cursor))) := by
    rcases s.asks text cursor with _ | _ | _
    · exact h
    · exact h.setActiveLevel "default"
    · exact h.setActiveLevel "shift"
  rw [heq]
  exact ⟨hkept.closed, hkept.page⟩

theorem Paged.levelSwitch (h : Paged s) (level : String) (timeNow : ℕ) :
    Paged (s.levelSwitch level timeNow) := by
  unfold State.levelSwitch
  split
  · exact Paged.setActiveLevel (s := { s with levelSwitchPressTime := some timeNow })
      ⟨h.closed, h.page⟩ level
  · split
    · have hkeys := sameKeys_setLatched s true
      rw [setLatched_eq]
      refine ⟨h.closed.of_sameKeys hkeys, fun hknown => ?_⟩
      obtain ⟨hdefault, current, hcurrent, hhas⟩ := h.page hknown
      exact ⟨(hkeys.has _).mpr hdefault, current, hcurrent, (hkeys.has _).mpr hhas⟩
    · exact h.setActiveLevel level

theorem Paged.updateKeys (hclosed : Closed s.layers) (groupName : String)
    (purpose : ContentPurpose) (isPhone : Bool) :
    Paged (s.updateKeys files groupName purpose isPhone) := by
  unfold State.updateKeys
  cases keyboardModel files groupName purpose isPhone with
  | none => exact paged_settle hclosed fun _ => id
  | some model => exact paged_settle model.closed_layers fun _ => id

theorem frame_settle (s : State) (level : String) :
    (settle (s.setActiveLevel level)).contentHint = s.contentHint ∧
      (settle (s.setActiveLevel level)).lowercased = s.lowercased := by
  obtain ⟨layers, -, -, heq⟩ := settle_setActiveLevel s level
  rw [heq]
  exact ⟨rfl, rfl⟩

theorem frame_updateLevelFromHints (s : State) (userInput : Bool) :
    (s.updateLevelFromHints userInput).contentHint = s.contentHint ∧
      (s.updateLevelFromHints userInput).lowercased = s.lowercased := by
  obtain ⟨heq, -⟩ | ⟨level, -, -, heq⟩ | ⟨heq, -⟩ := updateLevelFromHints_cases s userInput
  · rw [heq]
    exact ⟨rfl, rfl⟩
  · rw [heq]
    exact frame_settle s level
  · rw [heq]
    exact ⟨rfl, rfl⟩

theorem frame_surroundingTextSet (s : State) (text : Option String) (cursor : ℕ) :
    (s.surroundingTextSet text cursor).contentHint = s.contentHint ∧
      (s.surroundingTextSet text cursor).lowercased = s.lowercased := by
  obtain ⟨id, heq⟩ := surroundingTextSet_eq s text cursor
  rw [heq]
  rcases s.asks text cursor with _ | _ | _
  · exact ⟨rfl, rfl⟩
  · exact frame_settle s "default"
  · exact frame_settle s "shift"

theorem frame_updateKeys (files : String → Option KeyboardModel) (s : State) (groupName : String)
    (purpose : ContentPurpose)
    (isPhone : Bool) : (s.updateKeys files groupName purpose isPhone).contentHint = s.contentHint ∧
      (s.updateKeys files groupName purpose isPhone).lowercased = s.lowercased := by
  unfold State.updateKeys
  cases keyboardModel files groupName purpose isPhone with
  | none => exact frame_settle _ "default"
  | some model => exact frame_settle _ "default"

theorem Inv.new (files : String → Option KeyboardModel) (groupName : String)
    (purpose : ContentPurpose) (isPhone : Bool) : Inv (State.new files groupName purpose isPhone) := by
  have hlower := (frame_updateKeys files empty groupName purpose isPhone).2
  refine ⟨Paged.updateKeys ?_ groupName purpose isPhone, fun h => ?_⟩
  · intro level page hpage
    cases hpage
  · exact absurd (hlower.symm.trans h) Bool.false_ne_true

theorem Inv.step {e : Event} (h : Inv s) (hstep : step files s e = some t) : Inv t := by
  cases e with
  | levelSwitch level timeNow =>
    obtain ⟨-, heq⟩ := Option.ite_none_right_eq_some.mp hstep
    obtain rfl := Option.some.inj heq
    have hkept := h.paged.levelSwitch level timeNow
    exact ⟨⟨hkept.closed, hkept.page⟩, Bool.noConfusion⟩
  | userInput =>
    obtain rfl := Option.some.inj hstep
    have hkept := h.paged.updateLevelFromHints true
    obtain ⟨hhint, hlower⟩ := frame_updateLevelFromHints s true
    refine ⟨⟨hkept.closed, hkept.page⟩, ?_⟩
    show (s.updateLevelFromHints true).lowercased = true →
      _ ∈ (s.updateLevelFromHints true).contentHint
    rw [hhint, hlower]
    exact h.lowercased
  | contentHints contentHint =>
    obtain rfl := Option.some.inj hstep
    have hpaged : Paged { s with contentHint := contentHint } := ⟨h.paged.closed, h.paged.page⟩
    have hkept : Paged (s.onContentHintsChanged contentHint) := hpaged.updateLevelFromHints false
    have hhint : (s.onContentHintsChanged contentHint).contentHint = contentHint :=
      (frame_updateLevelFromHints { s with contentHint := contentHint } false).1
    refine ⟨⟨hkept.closed, hkept.page⟩, fun hlower => ?_⟩
    show _ ∈ (s.onContentHintsChanged contentHint).contentHint
    rw [hhint]
    simpa using (Bool.and_eq_true_iff.mp hlower).2
  | updateKeys groupName purpose isPhone =>
    obtain rfl := Option.some.inj hstep
    obtain ⟨hhint, hlower⟩ := frame_updateKeys files s groupName purpose isPhone
    refine ⟨Paged.updateKeys h.paged.closed groupName purpose isPhone, ?_⟩
    rw [hhint, hlower]
    exact h.lowercased
  | surroundingText text cursor =>
    obtain ⟨-, heq⟩ := Option.ite_none_right_eq_some.mp hstep
    obtain rfl := Option.some.inj heq
    have hkept := h.paged.surroundingTextSet text cursor
    obtain ⟨hhint, hlower⟩ := frame_surroundingTextSet s text cursor
    refine ⟨⟨hkept.closed, hkept.page⟩, ?_⟩
    show (s.surroundingTextSet text cursor).lowercased = true →
      _ ∈ (s.surroundingTextSet text cursor).contentHint
    rw [hhint, hlower]
    exact h.lowercased

/-! ## What a sound state is kept by -/

theorem sound_settle {left lowercased : Bool} (hknown : ∀ call ∈ s.calls, call.2 = true)
    (hlatched : s.latched = true → s.OnCapsLock) (hhas : s.layers.has level) (hleft : left = false)
    (hlower : lowercased = true → level = "default") :
    Sound { settle (s.setActiveLevel level) with left := left, lowercased := lowercased } := by
  obtain ⟨layers, -, hsame, heq⟩ := settle_setActiveLevel s level
  rw [heq]
  refine ⟨?_, fun h => ?_, hleft, fun h => ?_⟩
  · intro call hcall
    obtain rfl | hcall := List.mem_cons.mp hcall
    · exact decide_eq_true hhas
    · exact hknown call hcall
  · -- the latch stays only where the shift page is current and stays so
    obtain ⟨hlatch, hstays⟩ := Bool.and_eq_true_iff.mp h
    obtain ⟨hcurrent, page, hpage, hcaps⟩ := hlatched hlatch
    obtain hnone | ⟨hlevel, -⟩ := of_decide_eq_true hstays
    · rw [hcurrent] at hnone
      cases hnone
    · have hshift : level = "shift" := Option.some.inj (hlevel.symm.trans hcurrent)
      rw [hsame hhas hlevel, hshift]
      exact ⟨if_pos (hshift ▸ hhas), page, hpage, hcaps⟩
  · rw [hlower h] at hhas ⊢
    exact if_pos hhas

theorem Sound.has_of_calls (h : Sound t)
    (hcalls : t.calls = (settle (s.setActiveLevel level)).calls) : s.layers.has level := by
  rw [calls_settle] at hcalls
  exact of_decide_eq_true (h.known _ (hcalls ▸ List.mem_cons_self))

theorem Sound.has_default (h : Sound s) (hinv : Inv s) : s.layers.has "default" :=
  (hinv.paged.page h.known).1

theorem Sound.has_current (h : Sound s) (hinv : Inv s) (hcurrent : s.currentPage = some level) :
    s.layers.has level := by
  obtain ⟨-, level', hcurrent', hhas⟩ := hinv.paged.page h.known
  obtain rfl := Option.some.inj (hcurrent.symm.trans hcurrent')
  exact hhas

theorem Sound.not_latched (h : Sound s) (hlower : s.lowercased = true) : s.latched = false := by
  cases hlatched : s.latched with
  | false => rfl
  | true =>
    have hshift := (h.latched hlatched).1
    rw [h.lowercased hlower] at hshift
    exact absurd hshift (by decide)

theorem left_automatic (hleft : s.left = false)
    (h : s.latched = true → t.currentPage = s.currentPage) : (automatic s t).left = false := by
  show (s.left || s.latched && decide (t.currentPage ≠ s.currentPage)) = false
  cases hlatched : s.latched with
  | false => simp [hleft]
  | true => simp [hleft, h hlatched]

theorem Sound.updateLevelFromHints {lowercased : Bool} (hknown : ∀ call ∈ s.calls, call.2 = true)
    (hlatched : s.latched = true → s.OnCapsLock) (hleft : s.left = false)
    (hdefault : s.layers.has "default")
    (hlower : lowercased = true → s.latched = false ∧ .lowercase ∈ s.contentHint) (userInput : Bool) :
    Sound { automatic s (s.updateLevelFromHints userInput) with lowercased := lowercased } := by
  obtain ⟨heq, h⟩ | ⟨level, hunlatched, hlevel, heq⟩ | ⟨heq, h⟩ :=
    updateLevelFromHints_cases s userInput
  · rw [heq]
    refine ⟨hknown, hlatched, left_automatic hleft fun _ => rfl, fun hl => ?_⟩
    obtain ⟨hunlatched, hmem⟩ := hlower hl
    obtain h | h := h
    · exact absurd (h.symm.trans hunlatched) (by decide)
    · exact absurd hmem h
  · rw [heq]
    refine sound_settle hknown hlatched ?_ (left_automatic hleft fun h => ?_) fun hl => ?_
    · obtain rfl | ⟨rfl, hshift, -⟩ := hlevel
      · exact hdefault
      · exact hshift
    · exact absurd (h.symm.trans hunlatched) (by decide)
    · obtain h | ⟨-, -, hnot⟩ := hlevel
      · exact h
      · exact absurd (hlower hl).2 hnot
  · rw [heq]
    exact ⟨hknown, hlatched, left_automatic hleft fun _ => rfl, fun hl => absurd (hlower hl).2 h⟩

/-! ## Careful steps -/

/-- The level is latched while the shift page is current, the keys are rebuilt of a file with a
default level and not while a level is latched, and the surrounding text asks for a capital in a
layout that has capitals and not after lowercase hints, and for none while no level is latched. -/
def Careful (files : String → Option KeyboardModel) (s : State) : Event → Prop
  | .levelSwitch level timeNow =>
    level = "default" ∧ s.switchedLately timeNow = true → s.currentPage = some "shift"
  | .userInput => True
  | .contentHints _ => True
  | .updateKeys groupName purpose isPhone =>
    ∀ model ∈ keyboardModel files groupName purpose isPhone,
      s.latched = false ∧ "default" ∈ model.levels.map LevelModel.level
  | .surroundingText text cursor =>
    (s.asks text cursor = some true → s.layers.has "shift" ∧ s.lowercased = false) ∧
      (s.asks text cursor = some false → s.latched = false)

instance Careful.decidable (files : String → Option KeyboardModel) (s : State) (e : Event) :
    Decidable (Careful files s e) := by
  unfold Careful
  split <;> infer_instance

theorem sound_updateKeys (h : Sound s) (hinv : Inv s) (groupName : String)
    (purpose : ContentPurpose) (isPhone : Bool) :
    Sound (s.updateKeys files groupName purpose isPhone) ↔
      Careful files s (.updateKeys groupName purpose isPhone) := by
  simp only [State.updateKeys, Careful]
  cases keyboardModel files groupName purpose isPhone with
  | none =>
    refine iff_of_true ?_ fun _ hmodel => by cases hmodel
    refine sound_settle (s := { s with isPhone := isPhone }) h.known h.latched
      (h.has_default hinv) ?_ fun _ => rfl
    exact (left_settle _ "default").trans h.left
  | some model =>
    let built : State := { s with isPhone := isPhone, layers := model.layers, currentPage := none }
    show Sound (settle (built.setActiveLevel "default")) ↔ _
    have hdefault : built.layers.has "default" ↔ "default" ∈ model.levels.map LevelModel.level := by
      refine (has_foldl model.levels Dict.empty).trans (or_iff_right ?_)
      exact List.not_mem_nil
    constructor
    · rintro hsound _ ⟨⟩
      have hhas : built.layers.has "default" := hsound.has_of_calls rfl
      refine ⟨?_, hdefault.mp hhas⟩
      -- the page that was latched is gone, and nothing took the latch off
      cases hlatched : s.latched with
      | false => rfl
      | true =>
        obtain ⟨layers, -, -, heq⟩ := settle_setActiveLevel built "default"
        have hstays : (settle (built.setActiveLevel "default")).latched = true := by
          rw [heq]
          exact Bool.and_eq_true_iff.mpr ⟨hlatched, decide_eq_true (.inl rfl)⟩
        have hshift := (hsound.latched hstays).1
        rw [currentPage_settle hhas] at hshift
        exact absurd hshift (by decide)
    · intro hcareful
      obtain ⟨hunlatched, hmem⟩ := hcareful model rfl
      refine sound_settle (s := built) h.known (fun hlatched => ?_) (hdefault.mpr hmem) ?_ fun _ => rfl
      · exact absurd (hlatched.symm.trans hunlatched) (by decide)
      · exact (left_settle built "default").trans h.left

theorem sound_levelSwitch (h : Sound s) (hinv : Inv s) (hhas : s.layers.has level) (timeNow : ℕ) :
    Sound { s.levelSwitch level timeNow with lowercased := false } ↔
      Careful files s (.levelSwitch level timeNow) := by
  simp only [State.levelSwitch, Careful]
  by_cases hshift : level = "shift"
  · rw [if_pos hshift]
    refine iff_of_true ?_ fun hdefault => ?_
    · refine sound_settle (s := { s with levelSwitchPressTime := some timeNow }) h.known h.latched
        hhas ?_ Bool.noConfusion
      exact (left_settle _ level).trans h.left
    · exact absurd (hshift.symm.trans hdefault.1) (by decide)
  · rw [if_neg hshift]
    by_cases hlatches : level = "default" ∧ s.switchedLately timeNow = true
    · rw [if_pos hlatches]
      constructor
      · intro hsound _
        have hlatched : (s.setLatched true).latched = true := by rw [setLatched_eq]
        have hcurrent := (hsound.latched hlatched).1
        rw [setLatched_eq] at hcurrent
        exact hcurrent
      · intro hcareful
        have hcurrent := hcareful hlatches
        have hcaps := onCapsLock_setLatched hcurrent (h.has_current hinv hcurrent)
        rw [setLatched_eq] at hcaps ⊢
        exact ⟨h.known, fun _ => hcaps, h.left, Bool.noConfusion⟩
    · rw [if_neg hlatches]
      refine iff_of_true ?_ fun h => absurd h hlatches
      refine sound_settle h.known h.latched hhas ?_ Bool.noConfusion
      exact (left_settle s level).trans h.left

theorem sound_surroundingTextSet (h : Sound s) (hinv : Inv s) (text : Option String) (cursor : ℕ) :
    Sound (automatic s (s.surroundingTextSet text cursor)) ↔
      Careful files s (.surroundingText text cursor) := by
  simp only [Careful]
  obtain ⟨id, heq⟩ := surroundingTextSet_eq s text cursor
  rw [heq]
  cases s.asks text cursor with
  | none =>
    refine iff_of_true ?_ ⟨fun h => (by cases h), fun h => (by cases h)⟩
    exact ⟨h.known, h.latched, left_automatic h.left fun _ => rfl, h.lowercased⟩
  | some capital =>
    cases capital with
    | true =>
      show Sound (automatic s { settle (s.setActiveLevel "shift") with surroundingTextId := id }) ↔ _
      constructor
      · intro hsound
        refine ⟨fun _ => ?_, fun h => (by cases h)⟩
        have hhas : s.layers.has "shift" := hsound.has_of_calls rfl
        refine ⟨hhas, ?_⟩
        cases hlower : s.lowercased with
        | false => rfl
        | true =>
          have hcurrent := hsound.lowercased ((frame_settle s "shift").2.trans hlower)
          have hshift := currentPage_settle hhas
          exact absurd (hshift.symm.trans hcurrent) (by decide)
      · rintro ⟨hcareful, -⟩
        obtain ⟨hhas, hlower⟩ := hcareful rfl
        have hsettled : Sound { settle (s.setActiveLevel "shift") with
            left := false, lowercased := false } :=
          sound_settle h.known h.latched hhas rfl Bool.noConfusion
        refine ⟨hsettled.known, hsettled.latched, left_automatic h.left fun hlatched => ?_, fun hl => ?_⟩
        · rw [(h.latched hlatched).1]
          exact currentPage_settle hhas
        · exact absurd ((frame_settle s "shift").2.symm.trans hl) (by rw [hlower]; decide)
    | false =>
      show Sound (automatic s { settle (s.setActiveLevel "default") with surroundingTextId := id }) ↔ _
      have hhas := h.has_default hinv
      constructor
      · intro hsound
        refine ⟨fun h => (by cases h), fun _ => ?_⟩
        cases hlatched : s.latched with
        | false => rfl
        | true =>
          have hcurrent := (h.latched hlatched).1
          have hmoved : decide ((settle (s.setActiveLevel "default")).currentPage ≠ s.currentPage) =
              true := by
            rw [currentPage_settle hhas, hcurrent]
            decide
          have hleft : (s.left || s.latched &&
            decide ((settle (s.setActiveLevel "default")).currentPage ≠ s.currentPage)) = false :=
            hsound.left
          rw [hmoved, hlatched, h.left] at hleft
          cases hleft
      · rintro ⟨-, hcareful⟩
        have hunlatched := hcareful rfl
        have hsettled : Sound { settle (s.setActiveLevel "default") with
            left := false, lowercased := true } :=
          sound_settle h.known h.latched hhas rfl fun _ => rfl
        refine ⟨hsettled.known, hsettled.latched, left_automatic h.left fun hlatched => ?_, ?_⟩
        · exact absurd (hlatched.symm.trans hunlatched) (by decide)
        · exact fun _ => currentPage_settle hhas

theorem has_of_switches (h : Paged s)
    (hkey : (s.layers.values.any fun page => level ∈ page.switches) = true) : s.layers.has level := by
  obtain ⟨page, hpage, hlevel⟩ := List.any_eq_true.mp hkey
  obtain ⟨⟨from', page'⟩, hentry, rfl⟩ := List.mem_map.mp hpage
  exact h.closed from' page' (Dict.get?_eq_some.mpr hentry) level (of_decide_eq_true hlevel)

theorem sound_step {e : Event} (hinv : Inv s) (h : Sound s) (hstep : step files s e = some t) :
    Sound t ↔ Careful files s e := by
  cases e with
  | levelSwitch level timeNow =>
    obtain ⟨hkey, heq⟩ := Option.ite_none_right_eq_some.mp hstep
    obtain rfl := Option.some.inj heq
    exact sound_levelSwitch h hinv (has_of_switches hinv.paged hkey) timeNow
  | userInput =>
    obtain rfl := Option.some.inj hstep
    refine iff_of_true ?_ trivial
    refine Sound.updateLevelFromHints h.known h.latched h.left (h.has_default hinv) ?_ true
    intro hlower
    have hlower' : s.lowercased = true := (frame_updateLevelFromHints s true).2.symm.trans hlower
    exact ⟨h.not_latched hlower', hinv.lowercased hlower'⟩
  | contentHints contentHint =>
    obtain rfl := Option.some.inj hstep
    refine iff_of_true ?_ trivial
    refine Sound.updateLevelFromHints (s := { s with contentHint := contentHint }) h.known h.latched
      h.left (h.has_default hinv) (fun hlower => ?_) false
    obtain ⟨hunlatched, hmem⟩ := Bool.and_eq_true_iff.mp hlower
    exact ⟨by simpa using hunlatched, of_decide_eq_true hmem⟩
  | updateKeys groupName purpose isPhone =>
    obtain rfl := Option.some.inj hstep
    exact sound_updateKeys h hinv groupName purpose isPhone
  | surroundingText text cursor =>
    obtain ⟨-, heq⟩ := Option.ite_none_right_eq_some.mp hstep
    obtain rfl := Option.some.inj heq
    exact sound_surroundingTextSet h hinv text cursor

/-! ## Runs -/

def StartsWell (files : String → Option KeyboardModel) (groupName : String)
    (purpose : ContentPurpose) (isPhone : Bool) : Prop :=
  ∃ model ∈ keyboardModel files groupName purpose isPhone,
    "default" ∈ model.levels.map LevelModel.level

theorem sound_new (files : String → Option KeyboardModel) (groupName : String)
    (purpose : ContentPurpose) (isPhone : Bool) :
    Sound (State.new files groupName purpose isPhone) ↔
      StartsWell files groupName purpose isPhone := by
  simp only [StartsWell, State.new, State.updateKeys]
  cases keyboardModel files groupName purpose isPhone with
  | none =>
    constructor
    · intro hsound
      have hhas : (Dict.empty : Dict String Page).has "default" := hsound.has_of_calls rfl
      cases hhas
    · rintro ⟨_, ⟨⟩, -⟩
  | some model =>
    let built : State := { empty with isPhone := isPhone, layers := model.layers, currentPage := none }
    have hdefault : built.layers.has "default" ↔ "default" ∈ model.levels.map LevelModel.level := by
      refine (has_foldl model.levels Dict.empty).trans (or_iff_right ?_)
      exact List.not_mem_nil
    constructor
    · exact fun hsound => ⟨model, rfl, hdefault.mp (hsound.has_of_calls rfl)⟩
    · rintro ⟨_, ⟨⟩, hmem⟩
      refine sound_settle (s := built) (by simp [built, empty]) Bool.noConfusion
        (hdefault.mpr hmem) ?_ fun _ => rfl
      exact left_settle built "default"

theorem always_sound_iff {groupName : String} {purpose : ContentPurpose} {isPhone : Bool}
    (es : List Event) (hsound : Sound (State.new files groupName purpose isPhone))
    (hrun : Runs.run (step files) (State.new files groupName purpose isPhone) es = some s) :
    Runs.Always (step files) Sound (State.new files groupName purpose isPhone) es ↔
      Runs.Allowed (step files) (Careful files) (State.new files groupName purpose isPhone) es :=
  Runs.always_iff_allowed_of_inv (Inv.new files groupName purpose isPhone) hsound
    (fun _ _ _ hinv hstep => hinv.step hstep)
    (fun _ _ _ hinv hs hstep => sound_step hinv hs hstep) hrun

/-- A run is sound all along if and only if the first layout has a default level and each step is
careful. -/
theorem run_sound_iff (files : String → Option KeyboardModel) (groupName : String)
    (purpose : ContentPurpose) (isPhone : Bool) (es : List Event)
    (hrun : Runs.run (step files) (State.new files groupName purpose isPhone) es = some s) :
    Runs.Always (step files) Sound (State.new files groupName purpose isPhone) es ↔
      StartsWell files groupName purpose isPhone ∧
        Runs.Allowed (step files) (Careful files) (State.new files groupName purpose isPhone) es := by
  have hiff := fun hsound => always_sound_iff es hsound hrun
  constructor
  · intro h
    exact ⟨(sound_new files groupName purpose isPhone).mp h.head, (hiff h.head).mp h⟩
  · rintro ⟨hstart, hallowed⟩
    exact (hiff ((sound_new files groupName purpose isPhone).mpr hstart)).mpr hallowed

def letters : KeyboardModel where
  levels := [
    ⟨"default", [⟨"shift", true⟩, ⟨"opt", false⟩]⟩,
    ⟨"shift", [⟨"default", true⟩, ⟨"opt", false⟩]⟩,
    ⟨"opt", [⟨"default", false⟩]⟩]
  switch := by decide

def digits : KeyboardModel where
  levels := [⟨"default", []⟩]
  switch := by decide

def twoFiles (name : String) : Option KeyboardModel :=
  if name = "us" then some letters else if name = "digits" then some digits else none

theorem run_sound_iff_typed :
    let es : List Event := [.levelSwitch "shift" 0, .levelSwitch "default" 100000, .userInput,
      .levelSwitch "opt" 9000000, .contentHints [.titlecase], .surroundingText (some "a b") 2,
      .updateKeys "us" .digits false, .contentHints [.lowercase], .userInput]
    ∃ s, Runs.run (step twoFiles) (State.new twoFiles "us" .normal false) es = some s ∧
      Runs.Always (step twoFiles) Sound (State.new twoFiles "us" .normal false) es := by
  intro es
  have hsome : (Runs.run (step twoFiles) (State.new twoFiles "us" .normal false) es).isSome = true := by
    decide
  obtain ⟨s, hrun⟩ := Option.isSome_iff_exists.mp hsome
  refine ⟨s, hrun, (run_sound_iff twoFiles "us" .normal false es hrun).mpr ⟨?_, ?_⟩⟩
  · exact ⟨letters, rfl, by decide⟩
  · decide

def rebuiltLatched : List Event :=
  [.levelSwitch "shift" 0, .levelSwitch "default" 100000, .updateKeys "us" .digits false]

def latchedSymbols : List Event :=
  [.levelSwitch "shift" 0, .levelSwitch "opt" 100000, .levelSwitch "default" 300000]

def textAfterRebuild : List Event :=
  [.contentHints [.autoCapitalization], .updateKeys "us" .digits false, .surroundingText none 0]

def textAfterLowercase : List Event :=
  [.contentHints [.autoCapitalization], .contentHints [.lowercase], .surroundingText none 0]

def RunSound (es : List Event) : Prop :=
  ∀ s, Runs.run (step twoFiles) (State.new twoFiles "us" .normal false) es = some s →
    Runs.Always (step twoFiles) Sound (State.new twoFiles "us" .normal false) es

theorem not_runSound (es : List Event)
    (hrun : (Runs.run (step twoFiles) (State.new twoFiles "us" .normal false) es).isSome = true)
    (hcareless : ¬ Runs.Allowed (step twoFiles) (Careful twoFiles)
      (State.new twoFiles "us" .normal false) es) : ¬ RunSound es := by
  intro h
  obtain ⟨s, hs⟩ := Option.isSome_iff_exists.mp hrun
  have hsound : Sound (State.new twoFiles "us" .normal false) := (h s hs).head
  exact hcareless ((always_sound_iff es hsound hs).mp (h s hs))

theorem not_run_sound : ¬ RunSound rebuiltLatched ∧ ¬ RunSound latchedSymbols ∧
    ¬ RunSound textAfterRebuild ∧ ¬ RunSound textAfterLowercase := by
  refine ⟨not_runSound _ ?_ ?_, not_runSound _ ?_ ?_, not_runSound _ ?_ ?_, not_runSound _ ?_ ?_⟩
  all_goals decide

end Keyboard.Levels
