import GnomeShellMobile.OskCompletion.Engines

/-!
# OskCompletion — when completion, the controller and the engine agree

* **`run_completion_iff`**: `Law` holds all along a run exactly when each event is `Orderly`.
-/

namespace OskCompletion

variable {s : State} {i : ℕ} {call : Call}

theorem State.Told.settled (h : s.Told) (hquiet : s.Quiet) :
    s.oskCompletionEnabled.getD false = s.completes := by
  obtain ⟨hcalls, hanswers⟩ := hquiet
  rcases h with h | ⟨call, hcall, -⟩ | h
  · exact h
  · rw [hcalls] at hcall
    cases hcall
  · rw [hanswers] at h
    cases h

theorem law_of (requested : if s.completes then s.requested = some typingBoosterEngine
      else s.IsActivated s.requested)
    (stored : s.completes → ∃ engine, s.preOskEngine = some engine ∧ engine ≠ "" ∧
      s.IsActivated (some engine))
    (told : s.Told) (closed : s.opened = false → s.completes = false) : Law s :=
  ⟨requested, stored, told, told.settled, closed⟩

theorem law_of_off (hoff : s.completes = false) (requested : s.IsActivated s.requested)
    (told : s.Told) : Law s := by
  refine law_of ?_ ?_ told fun _ => hoff
  · rw [if_neg (by simp [hoff])]
    exact requested
  · intro hon
    rw [hoff] at hon
    cases hon

theorem Law.isActivated (h : Law s) (hoff : s.completes = false) : s.IsActivated s.requested := by
  have hrequested := h.requested
  rwa [if_neg (by simp [hoff])] at hrequested

theorem Law.requested_typingBooster (h : Law s) (hon : s.completes = true) :
    s.requested = some typingBoosterEngine := by
  have hrequested := h.requested
  rwa [if_pos hon] at hrequested

def Unstored (s : State) : Prop := s.oskCompletion = none → s.preOskEngine = none

theorem ne_of_isXkb {name : String} (h : isXkb name = true) :
    name ≠ "" ∧ name ≠ typingBoosterEngine := by
  constructor
  · rintro rfl
    revert h
    decide
  · rintro rfl
    revert h
    decide

/-! ## What is pending -/

theorem tells_controller (enabled fallback : Bool) :
    Tells ⟨.setCompletionEnabled enabled .controller, fallback⟩ := by
  cases enabled with
  | true => exact .inl rfl
  | false => exact .inr rfl

theorem not_tells_source (enabled fallback : Bool) :
    ¬Tells ⟨.setCompletionEnabled enabled .source, fallback⟩ := by
  rintro (h | h) <;> simp at h

theorem not_tells_setEngine (fallback : Bool) : ¬Tells ⟨.setEngine, fallback⟩ := by
  rintro (h | h) <;> simp at h

theorem exists_tells_append {calls : List Call} (h : ¬Tells call) :
    (∃ c ∈ calls ++ [call], Tells c) ↔ ∃ c ∈ calls, Tells c := by
  constructor
  · rintro ⟨c, hc, htells⟩
    rcases List.mem_append.mp hc with hc | hc
    · exact ⟨c, hc, htells⟩
    · rw [List.mem_singleton.mp hc] at htells
      exact absurd htells h
  · rintro ⟨c, hc, htells⟩
    exact ⟨c, List.mem_append_left _ hc, htells⟩

theorem exists_tells_eraseIdx {calls : List Call} (hget : calls[i]? = some call) (h : ¬Tells call) :
    (∃ c ∈ calls.eraseIdx i, Tells c) ↔ ∃ c ∈ calls, Tells c := by
  constructor
  · rintro ⟨c, hc, htells⟩
    exact ⟨c, List.mem_of_mem_eraseIdx hc, htells⟩
  · rintro ⟨c, hc, htells⟩
    obtain ⟨j, hj⟩ := List.mem_iff_getElem?.mp hc
    have hne : j ≠ i := by
      rintro rfl
      rw [hget] at hj
      cases hj
      exact h htells
    exact ⟨c, List.mem_eraseIdx_iff_getElem?.mpr ⟨j, hne, hj⟩, htells⟩

theorem exists_tells_set {calls : List Call} (hget : calls[i]? = some call) :
    (∃ c ∈ calls.set i { call with fallback := true }, Tells c) ↔ ∃ c ∈ calls, Tells c := by
  have hlt : i < calls.length := (List.getElem?_eq_some_iff.mp hget).1
  constructor
  · rintro ⟨c, hc, htells⟩
    rcases List.mem_or_eq_of_mem_set hc with hc | rfl
    · exact ⟨c, hc, htells⟩
    · exact ⟨call, List.mem_of_getElem? hget, htells⟩
  · rintro ⟨c, hc, htells⟩
    obtain ⟨j, hj⟩ := List.mem_iff_getElem?.mp hc
    cases Nat.decEq j i with
    | isTrue h =>
      subst h
      rw [hget] at hj
      cases hj
      exact ⟨{ call with fallback := true },
        List.mem_of_getElem? (List.getElem?_set_self hlt), htells⟩
    | isFalse h =>
      exact ⟨c, List.mem_of_getElem? ((List.getElem?_set_ne (Ne.symm h)).trans hj), htells⟩

/-! ## The operations -/

theorem Law.answer (h : Law s) (enabled : Bool) (caller : Caller) :
    Law (s.answer enabled caller) := by
  cases caller with
  | source => exact h
  | controller =>
    refine law_of h.requested h.stored ?_ h.closed
    rcases h.told with htold | htold | htold
    · exact .inl htold
    · exact .inr (.inl htold)
    · exact .inr (.inr (List.mem_append_left _ htold))

/-- `setCompletionEnabled` with `true` goes on to its call. -/
def SwitchesOn (s : State) (name : String) : Prop :=
  s.typingBooster = true ∧ s.currentEngineName = some name ∧ isXkb name = true ∧
    s.completes = false

theorem setCompletionEnabled_true_of {name : String} (h : SwitchesOn s name)
    (caller : Caller) : s.setCompletionEnabled true caller =
      ({ s with oskCompletion := some true, preOskEngine := some name } : State).request
        typingBoosterEngine (.setCompletionEnabled true caller) := by
  obtain ⟨htyping, hname, hxkb, hoff⟩ := h
  have hne : s.oskCompletion ≠ some true := by simpa [State.completes] using hoff
  simp [State.setCompletionEnabled, State.toggleCompletion, htyping, hname, hxkb, hne]

theorem setCompletionEnabled_true_other (h : ∀ name, ¬SwitchesOn s name)
    (caller : Caller) : s.setCompletionEnabled true caller = { s with errors := s.errors + 1 } ∨
      ∃ enabled, s.setCompletionEnabled true caller = s.answer enabled caller := by
  cases htyping : s.typingBooster with
  | false => exact .inr ⟨false, by simp [State.setCompletionEnabled, htyping]⟩
  | true =>
  cases hname : s.currentEngineName with
  | none => exact .inl (by simp [State.setCompletionEnabled, htyping, hname])
  | some name =>
  cases hxkb : isXkb name with
  | false => exact .inr ⟨false, by simp [State.setCompletionEnabled, htyping, hname, hxkb]⟩
  | true =>
    have hon : s.oskCompletion = some true := by
      have hswitches := h name
      simpa [SwitchesOn, htyping, hname, hxkb, State.completes] using hswitches
    exact .inr ⟨true,
      by simp [State.setCompletionEnabled, State.toggleCompletion, htyping, hname, hxkb, hon]⟩

theorem completes_iff : s.completes = true ↔ s.oskCompletion = some true := by
  simp [State.completes]

def Stored (s : State) : Prop :=
  s.completes → ∃ engine, s.preOskEngine = some engine ∧ engine ≠ "" ∧ s.IsActivated (some engine)

theorem setCompletionEnabled_false (hstored : Stored s) (hunstored : Unstored s) (caller : Caller) :
    (s.completes = false ∧ ∃ osk, osk ≠ some true ∧ s.setCompletionEnabled false caller =
      ({ s with oskCompletion := osk } : State).answer false caller) ∨
    s.completes = true ∧ ∃ engine, s.IsActivated (some engine) ∧
      s.setCompletionEnabled false caller = ({ s with oskCompletion := some false } : State).request
        engine (.setCompletionEnabled false caller) := by
  cases hcompletes : s.completes with
  | true =>
    obtain ⟨engine, hpre, hne, hactivated⟩ := hstored hcompletes
    refine .inr ⟨rfl, engine, hactivated, ?_⟩
    have hon := completes_iff.mp hcompletes
    simp [State.setCompletionEnabled, State.toggleCompletion, hon, hpre, Option.filter, hne]
  | false =>
    refine .inl ⟨rfl, some false, by simp, ?_⟩
    cases hosk : s.oskCompletion with
    | none =>
      have hnone := hunstored hosk
      simp [State.setCompletionEnabled, State.toggleCompletion, hosk, hnone]
    | some on =>
      cases on with
      | true =>
        rw [completes_iff.mpr hosk] at hcompletes
        cases hcompletes
      | false =>
        show (if s.oskCompletion = some false then s.answer false caller else _) = _
        rw [if_pos hosk, ← hosk]

theorem step_taken {s t : State} (hstep : step s (.taken i) = some t) :
    ∃ enabled, s.answers[i]? = some enabled ∧
      t = { s with answers := s.answers.eraseIdx i, oskCompletionEnabled := some enabled } := by
  cases hget : s.answers[i]? with
  | none => simp [step, hget] at hstep
  | some enabled =>
    simp only [step, hget] at hstep
    exact ⟨enabled, rfl, (Option.some.inj hstep).symm⟩

theorem step_done {s t : State} {ok : Bool} (hstep : step s (.done i ok) = some t) :
    ∃ call errors, s.calls[i]? = some call ∧
      ((ok = true ∨ call.fallback = true) ∧
        t = ({ s with errors := errors, calls := s.calls.eraseIdx i } : State).finish call.awaiting ∨
      ¬(ok = true ∨ call.fallback = true) ∧
        t = { s with
          errors := s.errors + 1
          requested := some fallbackEngineId
          calls := s.calls.set i { call with fallback := true } }) := by
  cases hget : s.calls[i]? with
  | none => simp [step, hget] at hstep
  | some call =>
    simp only [step, hget] at hstep
    cases ok with
    | true =>
      refine ⟨call, s.errors, rfl, .inl ⟨.inl rfl, ?_⟩⟩
      exact (Option.some.inj hstep).symm
    | false =>
      cases hfallback : call.fallback with
      | true =>
        simp only [hfallback] at hstep
        exact ⟨call, s.errors + 1, rfl, .inl ⟨.inr hfallback, (Option.some.inj hstep).symm⟩⟩
      | false =>
        simp only [hfallback] at hstep
        exact ⟨call, s.errors, rfl, .inr ⟨by simp [hfallback], (Option.some.inj hstep).symm⟩⟩

theorem law_setOskCompletion_true (h : Law s) :
    Law (s.setOskCompletion true) ↔ Orderly s (.setOskCompletion true) := by
  have hopened : Law { s with opened := true } :=
    law_of h.requested h.stored h.told fun hclosed => by cases hclosed
  show Law (if s.oskCompletionEnabled = some true then { s with opened := true }
    else ({ s with opened := true } : State).setCompletionEnabled true .controller) ↔ _
  cases decEq s.oskCompletionEnabled (some true) with
  | isTrue henabled =>
    rw [if_pos henabled]
    exact iff_of_true hopened fun _ _ hne => absurd henabled hne
  | isFalse henabled =>
  rw [if_neg henabled]
  cases Classical.em (∃ name, SwitchesOn s name) with
  | inl hswitches =>
    obtain ⟨name, hswitches⟩ := hswitches
    rw [setCompletionEnabled_true_of (s := { s with opened := true }) hswitches]
    obtain ⟨htyping, hname, hxkb, hoff⟩ := hswitches
    constructor
    · intro hlaw _ _ _ name' hmem _
      obtain ⟨engine, hstored, -, hactivated⟩ := hlaw.stored rfl
      rw [hname] at hmem
      obtain rfl := Option.some.inj hmem
      obtain rfl := Option.some.inj hstored
      exact hactivated
    · intro horderly
      have hactivated := horderly htyping hoff henabled name hname hxkb
      refine law_of rfl (fun _ => ⟨name, rfl, (ne_of_isXkb hxkb).1, hactivated⟩) ?_ ?_
      · exact .inr (.inl ⟨_, List.mem_append_right _ (.head _), tells_controller true false⟩)
      · intro hclosed
        cases hclosed
  | inr hstays =>
    have horderly : Orderly s (.setOskCompletion true) := fun htyping hoff _ name hname hxkb =>
      absurd ⟨name, htyping, hname, hxkb, hoff⟩ hstays
    refine iff_of_true ?_ horderly
    rcases setCompletionEnabled_true_other (s := { s with opened := true })
      (fun name hswitches => hstays ⟨name, hswitches⟩) .controller with heq | ⟨enabled, heq⟩
    · rw [heq]
      exact law_of hopened.requested hopened.stored hopened.told hopened.closed
    · rw [heq]
      exact hopened.answer enabled _

theorem law_setOskCompletion_false (h : Law s) (hunstored : Unstored s) :
    Law (s.setOskCompletion false) ↔ Orderly s (.setOskCompletion false) := by
  show Law (if s.oskCompletionEnabled = some false then { s with opened := false }
    else ({ s with opened := false } : State).setCompletionEnabled false .controller) ↔ _
  cases decEq s.oskCompletionEnabled (some false) with
  | isTrue henabled =>
    rw [if_pos henabled]
    constructor
    · exact fun hlaw _ => hlaw.closed rfl
    · exact fun horderly => law_of_off (horderly henabled) (h.isActivated (horderly henabled)) h.told
  | isFalse henabled =>
  rw [if_neg henabled]
  refine iff_of_true ?_ fun hfalse => absurd hfalse henabled
  rcases setCompletionEnabled_false (s := { s with opened := false }) h.stored hunstored
    .controller with ⟨hoff, osk, hosk, heq⟩ | ⟨hon, engine, hactivated, heq⟩
  · -- completion was off: the controller will take `false`
    rw [heq]
    have hstays : ({ s with oskCompletion := osk, opened := false } : State).completes = false := by
      simp [State.completes, hosk]
    refine law_of_off hstays (h.isActivated hoff) (.inr (.inr ?_))
    show State.completes _ ∈ s.answers ++ [false]
    exact List.mem_append_right _ (by simp [State.completes, State.answer, hosk])
  · -- the call will tell the controller
    rw [heq]
    refine law_of_off rfl hactivated (.inr (.inl ?_))
    exact ⟨_, List.mem_append_right _ (.head _), tells_controller false false⟩

theorem law_setEngine {id : String} (h : Law s) :
    Law (s.setEngine id) ↔ Orderly s (.setEngine id) := by
  cases hcompletes : s.completes with
  | false =>
    have hoff : s.oskCompletion ≠ some true := fun hon => by
      rw [completes_iff.mpr hon] at hcompletes
      cases hcompletes
    refine iff_of_true ?_ fun hon => absurd (hcompletes.symm.trans hon) (by decide)
    have heq : s.setEngine id = ({ s with activated := some id } : State).request id .setEngine :=
      if_neg hoff
    rw [heq]
    refine law_of_off hcompletes rfl ?_
    rcases h.told with htold | htold | htold
    · exact .inl htold
    · exact .inr (.inl ((exists_tells_append (not_tells_setEngine false)).mpr htold))
    · exact .inr (.inr htold)
  | true =>
  have hon := completes_iff.mp hcompletes
  have heq : s.setEngine id =
      if isXkb id then { s with activated := some id, preOskEngine := some id }
      else ({ s with activated := some id, preOskEngine := some id } : State).setCompletionEnabled
        false .source := if_pos hon
  rw [heq]
  cases hxkb : isXkb id with
  | true =>
    refine iff_of_true ?_ fun _ hxkb' => absurd (hxkb.symm.trans hxkb') (by decide)
    refine law_of ?_ (fun _ => ⟨id, rfl, (ne_of_isXkb hxkb).1, rfl⟩) h.told h.closed
    show if s.completes then _ else _
    rw [if_pos hcompletes]
    exact h.requested_typingBooster hcompletes
  | false =>
  show Law (State.setCompletionEnabled _ false .source) ↔ _
  cases decEq id "" with
  | isTrue hempty =>
    -- no engine to return to: that of completion stays
    subst hempty
    have hstays : State.setCompletionEnabled
        { s with activated := some "", preOskEngine := some "" } false .source =
        { s with activated := some "", preOskEngine := some "", oskCompletion := some false } := by
      simp [State.setCompletionEnabled, State.toggleCompletion, State.answer, hon, Option.filter]
    rw [hstays]
    refine iff_of_false (fun hlaw => ?_) fun horderly => (horderly hcompletes hxkb).1 rfl
    have hactivated : s.requested = some "" := hlaw.isActivated rfl
    rw [h.requested_typingBooster hcompletes] at hactivated
    exact absurd hactivated (by decide)
  | isFalse hne =>
  rcases setCompletionEnabled_false
    (s := { s with activated := some id, preOskEngine := some id })
    (fun _ => ⟨id, rfl, hne, rfl⟩) (fun hnone => by rw [hon] at hnone; cases hnone) .source with
    ⟨hoff, -⟩ | ⟨-, engine, hactivated, heq⟩
  · exact absurd (hcompletes.symm.trans hoff) (by decide)
  rw [heq]
  have hcalls : (∃ c ∈ s.calls ++ [⟨.setCompletionEnabled false .source, false⟩], Tells c) ↔
      ∃ c ∈ s.calls, Tells c := exists_tells_append (not_tells_source false false)
  constructor
  · intro hlaw _ _
    refine ⟨hne, ?_⟩
    rcases hlaw.told with htold | htold | htold
    · exact .inl htold
    · exact .inr (.inl (hcalls.mp htold))
    · exact .inr (.inr htold)
  · intro horderly
    refine law_of_off rfl hactivated ?_
    rcases (horderly hcompletes hxkb).2 with htold | htold | htold
    · exact .inl htold
    · exact .inr (.inl (hcalls.mpr htold))
    · exact .inr (.inr htold)

theorem told_finish (h : s.Told) (hget : s.calls[i]? = some call) :
    (({ s with calls := s.calls.eraseIdx i } : State).finish call.awaiting).Told := by
  have hstays : ¬Tells call → (s.oskCompletionEnabled.getD false = s.completes ∨
      (∃ c ∈ s.calls.eraseIdx i, Tells c) ∨ s.completes ∈ s.answers) := by
    intro hnot
    rcases h with htold | htold | htold
    · exact .inl htold
    · exact .inr (.inl ((exists_tells_eraseIdx hget hnot).mpr htold))
    · exact .inr (.inr htold)
  obtain ⟨awaiting, fallback⟩ := call
  cases awaiting with
  | setEngine => exact hstays (not_tells_setEngine _)
  | setCompletionEnabled enabled caller =>
    cases caller with
    | source =>
      cases enabled with
      | true => exact hstays (not_tells_source _ _)
      | false => exact hstays (not_tells_source _ _)
    | controller =>
      refine .inl ?_
      have hflags : s.oskCompletion.getD false = s.completes := by
        rcases hosk : s.oskCompletion with - | on
        · simp [State.completes, hosk]
        · cases on <;> simp [State.completes, hosk]
      cases enabled with
      | true => exact hflags
      | false => exact hflags

theorem law_finish (h : Law s) (hget : s.calls[i]? = some call) :
    Law (({ s with calls := s.calls.eraseIdx i } : State).finish call.awaiting) ↔
      ((∃ caller, call.awaiting = .setCompletionEnabled false caller) → s.completes = false) := by
  have htold := told_finish h.told hget
  obtain ⟨awaiting, fallback⟩ := call
  cases awaiting with
  | setEngine =>
    refine iff_of_true (law_of h.requested h.stored htold h.closed) ?_
    rintro ⟨caller, heq⟩
    cases heq
  | setCompletionEnabled enabled caller =>
  cases enabled with
  | true =>
    refine iff_of_true ?_ ?_
    · cases caller with
      | controller => exact law_of h.requested h.stored htold h.closed
      | source => exact law_of h.requested h.stored htold h.closed
    · rintro ⟨caller', heq⟩
      cases heq
  | false =>
    constructor
    · -- the engine to return to is deleted, so completion must be off
      intro hlaw _
      cases hcompletes : s.completes with
      | false => rfl
      | true =>
        cases caller with
        | controller =>
          obtain ⟨engine, hpre, -⟩ := hlaw.stored hcompletes
          cases hpre
        | source =>
          obtain ⟨engine, hpre, -⟩ := hlaw.stored hcompletes
          cases hpre
    · intro hoff
      have hcompletes := hoff ⟨caller, rfl⟩
      have hactivated := h.isActivated hcompletes
      cases caller with
      | controller => exact law_of_off hcompletes hactivated htold
      | source => exact law_of_off hcompletes hactivated htold

theorem law_fallback (h : Law s) (hget : s.calls[i]? = some call) : Law { s with
      errors := s.errors + 1
      requested := some fallbackEngineId
      calls := s.calls.set i { call with fallback := true } } ↔
      s.completes = false ∧ s.IsActivated (some fallbackEngineId) := by
  constructor
  · intro hlaw
    cases hcompletes : s.completes with
    | true =>
      have hrequested : some fallbackEngineId = some typingBoosterEngine :=
        hlaw.requested_typingBooster hcompletes
      exact absurd hrequested (by decide)
    | false => exact ⟨rfl, hlaw.isActivated hcompletes⟩
  · rintro ⟨hcompletes, hactivated⟩
    refine law_of_off hcompletes hactivated ?_
    rcases h.told with htold | htold | htold
    · exact .inl htold
    · exact .inr (.inl ((exists_tells_set hget).mpr htold))
    · exact .inr (.inr htold)

theorem law_taken {enabled : Bool} (h : Law s) :
    Law { s with answers := s.answers.eraseIdx i, oskCompletionEnabled := some enabled } ↔
      (enabled = s.completes ∨ (∃ call ∈ s.calls, Tells call) ∨
        s.completes ∈ s.answers.eraseIdx i) :=
  ⟨fun hlaw => hlaw.told, fun htold => law_of h.requested h.stored htold h.closed⟩

/-! ## Runs -/

theorem toggleCompletion_oskCompletion (s : State) (enabled : Bool) (caller : Caller) :
    (s.toggleCompletion enabled caller).oskCompletion = some enabled := by
  unfold State.toggleCompletion
  split
  · next heq => cases caller <;> exact heq
  · split
    · rfl
    · dsimp only
      split
      · cases caller <;> rfl
      · rfl

theorem Unstored.setCompletionEnabled (h : Unstored s) (enabled : Bool)
    (caller : Caller) : Unstored (s.setCompletionEnabled enabled caller) := by
  have htoggle : Unstored (s.toggleCompletion enabled caller) := fun hnone => by
    rw [toggleCompletion_oskCompletion] at hnone
    cases hnone
  cases enabled with
  | false => exact htoggle
  | true =>
    cases Classical.em (∃ name, SwitchesOn s name) with
    | inl hswitches =>
      obtain ⟨name, hswitches⟩ := hswitches
      rw [setCompletionEnabled_true_of hswitches]
      intro hnone
      cases hnone
    | inr hstays =>
      rcases setCompletionEnabled_true_other (not_exists.mp hstays) caller with heq | ⟨_, heq⟩
      · rw [heq]
        exact h
      · rw [heq]
        cases caller <;> exact h

theorem Unstored.finish (h : Unstored s) (awaiting : Awaiting) : Unstored (s.finish awaiting) := by
  cases awaiting with
  | setEngine => exact h
  | setCompletionEnabled enabled caller =>
    cases enabled with
    | true => cases caller <;> exact h
    | false => cases caller <;> exact fun _ => rfl

theorem Unstored.step {s t : State} {e : Event} (h : Unstored s) (hstep : step s e = some t) :
    Unstored t := by
  cases e with
  | setOskCompletion enabled =>
    obtain rfl := Option.some.inj hstep
    unfold State.setOskCompletion
    dsimp only
    split
    · exact h
    · exact Unstored.setCompletionEnabled (s := { s with opened := enabled }) h enabled _
  | setEngine id =>
    obtain rfl := Option.some.inj hstep
    unfold State.setEngine
    dsimp only
    split
    · next hon =>
      have hafter : Unstored { s with activated := some id, preOskEngine := some id } :=
        fun hnone => by
          rw [hon] at hnone
          cases hnone
      split
      · exact hafter
      · exact hafter.setCompletionEnabled false _
    · exact h
  | engineChanged name =>
    obtain rfl := Option.some.inj hstep
    exact h
  | done i ok =>
    obtain ⟨call, errors, -, ⟨-, rfl⟩ | ⟨-, rfl⟩⟩ := step_done hstep
    · exact Unstored.finish (s := { s with errors := errors, calls := _ }) h _
    · exact h
  | taken i =>
    obtain ⟨enabled, -, rfl⟩ := step_taken hstep
    exact h

theorem law_step_iff {s t : State} {e : Event} (hunstored : Unstored s) (h : Law s)
    (hstep : step s e = some t) : Law t ↔ Orderly s e := by
  cases e with
  | setOskCompletion enabled =>
    obtain rfl := Option.some.inj hstep
    cases enabled with
    | true => exact law_setOskCompletion_true h
    | false => exact law_setOskCompletion_false h hunstored
  | setEngine id =>
    obtain rfl := Option.some.inj hstep
    exact law_setEngine h
  | engineChanged name =>
    obtain rfl := Option.some.inj hstep
    exact iff_of_true (law_of h.requested h.stored h.told h.closed) trivial
  | done i ok =>
    obtain ⟨call, errors, hget, hends⟩ := step_done hstep
    have horderly : Orderly s (.done i ok) ↔ if ok = true ∨ call.fallback = true then
        (∃ caller, call.awaiting = .setCompletionEnabled false caller) → s.completes = false
        else s.completes = false ∧ s.IsActivated (some fallbackEngineId) := by
      show (∀ c ∈ s.calls[i]?, _) ↔ _
      simp only [hget, Option.mem_some, forall_eq']
    rw [horderly]
    rcases hends with ⟨hfinal, rfl⟩ | ⟨hfirst, rfl⟩
    · rw [if_pos hfinal]
      have hsame : Law { s with errors := errors } := law_of h.requested h.stored h.told h.closed
      exact law_finish hsame hget
    · rw [if_neg hfirst]
      exact law_fallback h hget
  | taken i =>
    obtain ⟨enabled, hget, rfl⟩ := step_taken hstep
    have horderly : Orderly s (.taken i) ↔ (enabled = s.completes ∨
        (∃ call ∈ s.calls, Tells call) ∨ s.completes ∈ s.answers.eraseIdx i) := by
      show (∀ enabled ∈ s.answers[i]?, _) ↔ _
      simp only [hget, Option.mem_some, forall_eq']
    rw [horderly]
    exact law_taken h

theorem law_new (typingBooster : Bool) : Law (State.new typingBooster) :=
  law_of_off rfl (show none ≠ some typingBoosterEngine from nofun) (.inl rfl)

/-- **The completion of a run.** -/
theorem run_completion_iff {typingBooster : Bool} {es : List Event} {t : State}
    (hrun : Runs.run step (State.new typingBooster) es = some t) :
    Runs.Always step Law (State.new typingBooster) es ↔
      Runs.Allowed step Orderly (State.new typingBooster) es :=
  Runs.always_iff_allowed_of_inv (I := Unstored) (fun _ => rfl) (law_new typingBooster)
    (fun _ _ _ => Unstored.step) (fun _ _ _ => law_step_iff) hrun

def inUse : List Event :=
  [.engineChanged "xkb:us::eng", .setEngine "xkb:us::eng", .done 0 true]

def openedAndClosed : List Event :=
  inUse ++ [.setOskCompletion true, .done 0 true, .engineChanged "typing-booster",
    .setEngine "xkb:de::ger", .setOskCompletion false, .done 0 true, .engineChanged "xkb:de::ger"]

theorem run_completion_openedAndClosed :
    ∃ t, Runs.run step (State.new true) openedAndClosed = some t ∧
      Runs.Always step Law (State.new true) openedAndClosed := by
  obtain ⟨t, hrun⟩ : ∃ t, Runs.run step (State.new true) openedAndClosed = some t :=
    Option.isSome_iff_exists.mp (by decide)
  exact ⟨t, hrun, (run_completion_iff hrun).mpr (by decide)⟩

def switchedOff : List Event :=
  inUse ++ [.setOskCompletion true, .done 0 true, .setEngine "anthy", .done 0 true]

def closedEarly : List Event :=
  inUse ++ [.setOskCompletion true, .done 0 true, .setOskCompletion false, .done 0 true,
    .setOskCompletion true, .setOskCompletion false, .done 0 true]

def openedTwice : List Event :=
  inUse ++ [.setOskCompletion true, .setOskCompletion false, .setOskCompletion true, .done 0 true,
    .done 0 true, .done 0 true, .setOskCompletion false, .taken 0]

theorem not_run_completion : (∃ t, Runs.run step (State.new true) switchedOff = some t ∧ t.Quiet ∧
        t.oskCompletionEnabled = some true ∧ t.oskCompletion = some false) ∧
      (∃ t, Runs.run step (State.new true) closedEarly = some t ∧ t.Quiet ∧
        t.opened = false ∧ t.oskCompletion = some true) ∧
      ∃ t, Runs.run step (State.new true) openedTwice = some t ∧ t.Quiet ∧
        t.oskCompletion = some false ∧ t.requested = some typingBoosterEngine ∧
        t.activated = some "xkb:us::eng" := by
  have hswitched : (Runs.run step (State.new true) switchedOff).map (fun t =>
      decide (t.Quiet ∧ t.oskCompletionEnabled = some true ∧ t.oskCompletion = some false)) =
      some true := by decide
  have hclosed : (Runs.run step (State.new true) closedEarly).map (fun t =>
      decide (t.Quiet ∧ t.opened = false ∧ t.oskCompletion = some true)) = some true := by decide
  have hopened : (Runs.run step (State.new true) openedTwice).map (fun t =>
      decide (t.Quiet ∧ t.oskCompletion = some false ∧ t.requested = some typingBoosterEngine ∧
        t.activated = some "xkb:us::eng")) = some true := by decide
  obtain ⟨t₁, hrun₁, h₁⟩ := Option.map_eq_some_iff.mp hswitched
  obtain ⟨t₂, hrun₂, h₂⟩ := Option.map_eq_some_iff.mp hclosed
  obtain ⟨t₃, hrun₃, h₃⟩ := Option.map_eq_some_iff.mp hopened
  exact ⟨⟨t₁, hrun₁, of_decide_eq_true h₁⟩, ⟨t₂, hrun₂, of_decide_eq_true h₂⟩,
    t₃, hrun₃, of_decide_eq_true h₃⟩

end OskCompletion
