import Mathlib.Data.List.Basic

/-!
# Runs — event-driven step systems and their invariants

A component that reacts to events (signals, timers, answers of asynchronous calls) is a
partial step function `step : σ → ε → Option σ`: `none` says that the event cannot happen in
that state. This module owns finite runs of such a function, reachability through steps that
meet a side condition, and the one induction behind every "in every reachable state" result.
-/

namespace Runs

variable {σ ε : Type*}
variable {step : σ → ε → Option σ} {ok : σ → ε → Prop} {s t : σ} {es : List ε} {I : σ → Prop}

/-- Execute the events of `es` in order; `none` as soon as one of them is not enabled. -/
def run (step : σ → ε → Option σ) : σ → List ε → Option σ
  | s, [] => some s
  | s, e :: es => (step s e).bind fun s' => run step s' es

variable (step)

@[simp] theorem run_nil (s : σ) : run step s [] = some s := rfl

@[simp] theorem run_cons (s : σ) (e : ε) (es : List ε) :
    run step s (e :: es) = (step s e).bind fun s' => run step s' es := rfl

theorem run_append (s : σ) (es fs : List ε) :
    run step s (es ++ fs) = (run step s es).bind fun s' => run step s' fs := by
  induction es generalizing s with
  | nil => simp
  | cons e es ih =>
      rw [List.cons_append, run_cons, run_cons, Option.bind_assoc]
      congr 1
      funext s'
      exact ih s'

variable {step}

/-- `Reach step ok s t`: some run from `s` ends in `t`, and each of its steps is taken in a
state and by an event that meet `ok`. -/
inductive Reach (step : σ → ε → Option σ) (ok : σ → ε → Prop) (s : σ) : σ → Prop where
  | refl : Reach step ok s s
  | tail {t u : σ} {e : ε} (hreach : Reach step ok s t) (hok : ok t e)
      (hstep : step t e = some u) : Reach step ok s u

/-- Every run is allowed: the side condition of plain reachability. -/
def Any (_ : σ) (_ : ε) : Prop := True

abbrev Reachable (step : σ → ε → Option σ) (s : σ) : σ → Prop := Reach step Any s

/-- **The invariant rule.** What holds at the start and is kept by every allowed step holds in
every state an allowed run reaches. Induction on the run. -/
theorem Reach.invariant (hreach : Reach step ok s t) (hinit : I s)
    (hkeep : ∀ u e v, I u → ok u e → step u e = some v → I v) : I t := by
  induction hreach with
  | refl => exact hinit
  | tail _ hok hstep ih => exact hkeep _ _ _ ih hok hstep

theorem Reach.mono {ok ok' : σ → ε → Prop}
    (h : ∀ u e, ok u e → ok' u e) (hreach : Reach step ok s t) : Reach step ok' s t := by
  induction hreach with
  | refl => exact .refl
  | tail _ hok hstep ih => exact .tail ih (h _ _ hok) hstep

theorem Reach.trans {s t u : σ}
    (h1 : Reach step ok s t) (h2 : Reach step ok t u) : Reach step ok s u := by
  induction h2 with
  | refl => exact h1
  | tail _ hok hstep ih => exact .tail ih hok hstep

/-- The events of `es` all meet `ok`, each in the state it finds. -/
def Allowed (step : σ → ε → Option σ) (ok : σ → ε → Prop) : σ → List ε → Prop
  | _, [] => True
  | s, e :: es => ok s e ∧ ∀ s', step s e = some s' → Allowed step ok s' es

instance Allowed.decidable (step : σ → ε → Option σ) (ok : σ → ε → Prop)
    [∀ s e, Decidable (ok s e)] : (s : σ) → (es : List ε) → Decidable (Allowed step ok s es)
  | _, [] => .isTrue trivial
  | s, e :: es =>
    match h : step s e with
    | none => decidable_of_iff (ok s e) (by simp [Allowed, h])
    | some s' =>
      have := Allowed.decidable step ok s' es
      decidable_of_iff (ok s e ∧ Allowed step ok s' es) (by simp [Allowed, h])

/-- Two side conditions that agree wherever an invariant of the allowed runs holds allow the same
lists. Induction on the list. -/
theorem Allowed.congr {ok ok' : σ → ε → Prop} {s : σ} (hinit : I s) (hok : ∀ u e, I u → (ok u e ↔ ok' u e))
    (hkeep : ∀ u e v, I u → ok u e → step u e = some v → I v) :
    Allowed step ok s es ↔ Allowed step ok' s es := by
  induction es generalizing s with
  | nil => exact Iff.rfl
  | cons e es ih =>
    have hfirst := hok s e hinit
    have hrest : ok s e → ∀ s', step s e = some s' →
        (Allowed step ok s' es ↔ Allowed step ok' s' es) := fun h s' hstep =>
      ih (hkeep s e s' hinit h hstep)
    constructor
    · rintro ⟨h, hes⟩
      exact ⟨hfirst.mp h, fun s' hstep => (hrest h s' hstep).mp (hes s' hstep)⟩
    · rintro ⟨h, hes⟩
      have h' := hfirst.mpr h
      exact ⟨h', fun s' hstep => (hrest h' s' hstep).mpr (hes s' hstep)⟩

theorem Allowed.of_append {s : σ} {es fs : List ε}
    (h : Allowed step ok s (es ++ fs)) : Allowed step ok s es := by
  induction es generalizing s with
  | nil => exact trivial
  | cons e es ih => exact ⟨h.1, fun s' hstep => ih (h.2 s' hstep)⟩

/-- `P` holds in the first state and in every state that the events of `es` lead to. -/
def Always (step : σ → ε → Option σ) (P : σ → Prop) : σ → List ε → Prop
  | s, [] => P s
  | s, e :: es => P s ∧ ∀ s', step s e = some s' → Always step P s' es

theorem Always.head {P : σ → Prop} {s : σ} (h : Always step P s es) : P s := by
  cases es with
  | nil => exact h
  | cons e es => exact h.1

/-- Induction on the list. -/
theorem Always.last {P : σ → Prop}
    (h : Always step P s es) (hrun : run step s es = some t) : P t := by
  induction es generalizing s with
  | nil =>
    cases hrun
    exact h
  | cons e es ih =>
    obtain ⟨s', hstep, hrest⟩ := Option.bind_eq_some_iff.mp hrun
    exact ih (h.2 s' hstep) hrest

/-- What the steps that meet `ok` keep, and what it gives, all along an allowed run. Induction on the
list. -/
theorem Allowed.always {I P : σ → Prop} {s : σ} (hinv : I s) (hgives : ∀ u, I u → P u)
    (hkeep : ∀ u e v, I u → ok u e → step u e = some v → I v) (h : Allowed step ok s es) :
    Always step P s es := by
  induction es generalizing s with
  | nil => exact hgives s hinv
  | cons e es ih =>
    refine ⟨hgives s hinv, fun s' hstep => ?_⟩
    exact ih (hkeep s e s' hinv h.1 hstep) (h.2 s' hstep)

/-- If the steps that meet `ok` keep `I`, which gives `P`, and the others lose `P`, then `P` holds all
along a run if and only if each of the steps meets `ok`. Induction on the list. -/
theorem always_iff_allowed_of_kept {I P : σ → Prop} (hinv : I s) (hgives : ∀ u, I u → P u)
    (hkeep : ∀ u e v, I u → ok u e → step u e = some v → I v)
    (hlose : ∀ u e v, I u → step u e = some v → P v → ok u e)
    (hrun : run step s es = some t) : Always step P s es ↔ Allowed step ok s es := by
  refine ⟨fun h => ?_, Allowed.always hinv hgives hkeep⟩
  induction es generalizing s with
  | nil => exact trivial
  | cons e es ih =>
    obtain ⟨s', hs', hrest⟩ := Option.bind_eq_some_iff.mp hrun
    have hlater := h.2 s' hs'
    have hok : ok s e := hlose s e s' hinv hs' hlater.head
    refine ⟨hok, fun s'' hs'' => ?_⟩
    obtain rfl := Option.some.inj (hs'.symm.trans hs'')
    exact ih (hkeep s e s' hinv hok hs') hrest hlater

/-- What a step keeps, in a state that also meets `I`, exactly when it meets `ok` holds all along a
run if and only if each of the steps meets `ok`. Induction on the list. -/
theorem always_iff_allowed_of_inv {I P : σ → Prop} (hinv : I s) (hinit : P s)
    (hkeep : ∀ u e v, I u → step u e = some v → I v)
    (hstep : ∀ u e v, I u → P u → step u e = some v → (P v ↔ ok u e))
    (hrun : run step s es = some t) : Always step P s es ↔ Allowed step ok s es := by
  induction es generalizing s with
  | nil => exact ⟨fun _ => trivial, fun _ => hinit⟩
  | cons e es ih =>
    obtain ⟨s', hs', hrest⟩ := Option.bind_eq_some_iff.mp hrun
    have hinv' := hkeep s e s' hinv hs'
    have hiff := hstep s e s' hinv hinit hs'
    constructor
    · rintro ⟨-, h⟩
      have hlater := h s' hs'
      have hhead : P s' := hlater.head
      refine ⟨hiff.mp hhead, fun s'' hs'' => ?_⟩
      obtain rfl := Option.some.inj (hs'.symm.trans hs'')
      exact (ih hinv' hhead hrest).mp hlater
    · rintro ⟨hok, h⟩
      refine ⟨hinit, fun s'' hs'' => ?_⟩
      obtain rfl := Option.some.inj (hs'.symm.trans hs'')
      exact (ih hinv' (hiff.mpr hok) hrest).mpr (h s' hs')

theorem always_iff_allowed {P : σ → Prop} (hinit : P s)
    (hstep : ∀ u e v, P u → step u e = some v → (P v ↔ ok u e))
    (hrun : run step s es = some t) : Always step P s es ↔ Allowed step ok s es :=
  always_iff_allowed_of_inv (I := fun _ => True) trivial hinit (fun _ _ _ _ _ => trivial)
    (fun u e v _ => hstep u e v) hrun

/-- Each step that the events of `es` make meets `P`. -/
def Along (step : σ → ε → Option σ) (P : σ → ε → σ → Prop) : σ → List ε → Prop
  | _, [] => True
  | s, e :: es => ∀ s', step s e = some s' → P s e s' ∧ Along step P s' es

instance Along.decidable (step : σ → ε → Option σ) (P : σ → ε → σ → Prop)
    [∀ s e s', Decidable (P s e s')] : (s : σ) → (es : List ε) → Decidable (Along step P s es)
  | _, [] => .isTrue trivial
  | s, e :: es =>
    match h : step s e with
    | none => .isTrue fun s' hs' => by rw [h] at hs'; cases hs'
    | some s' =>
      have := Along.decidable step P s' es
      decidable_of_iff (P s e s' ∧ Along step P s' es) (by simp [Along, h])

/-- What the steps that meet `ok` do all along an allowed run, if they also keep `I`. Induction on the
list. -/
theorem Allowed.along {P : σ → ε → σ → Prop} {s : σ} (hinv : I s)
    (hstep : ∀ u e v, I u → ok u e → step u e = some v → P u e v ∧ I v)
    (h : Allowed step ok s es) : Along step P s es := by
  induction es generalizing s with
  | nil => exact trivial
  | cons e es ih =>
    intro s' hs'
    obtain ⟨hfirst, hinv'⟩ := hstep s e s' hinv h.1 hs'
    exact ⟨hfirst, ih hinv' (h.2 s' hs')⟩

theorem allowed_any (step : σ → ε → Option σ) (s : σ) (es : List ε) : Allowed step Any s es := by
  induction es generalizing s with
  | nil => exact trivial
  | cons e es ih => exact ⟨trivial, fun s' _ => ih s'⟩

/-- What a step does, in a state that meets `I` and by an event that meets `side`, exactly when it meets
`ok`, and what gives `I` again: all steps of a run do it if and only if each of them meets `ok`.
Induction on the list. -/
theorem along_iff_allowed_of_side {side ok : σ → ε → Prop} {P : σ → ε → σ → Prop} (hinv : I s)
    (hkeep : ∀ u e v, I u → side u e → step u e = some v → P u e v → I v)
    (hstep : ∀ u e v, I u → side u e → step u e = some v → (P u e v ↔ ok u e))
    (hrun : run step s es = some t) (hside : Allowed step side s es) :
    Along step P s es ↔ Allowed step ok s es := by
  induction es generalizing s with
  | nil => exact Iff.rfl
  | cons e es ih =>
    obtain ⟨s', hs', hrest⟩ := Option.bind_eq_some_iff.mp hrun
    have hiff := hstep s e s' hinv hside.1 hs'
    constructor
    · intro h
      obtain ⟨hfirst, hlater⟩ := h s' hs'
      refine ⟨hiff.mp hfirst, fun s'' hs'' => ?_⟩
      obtain rfl := Option.some.inj (hs'.symm.trans hs'')
      exact (ih (hkeep s e s' hinv hside.1 hs' hfirst) hrest (hside.2 s' hs')).mp hlater
    · rintro ⟨hok, h⟩ s'' hs''
      obtain rfl := Option.some.inj (hs'.symm.trans hs'')
      have hfirst := hiff.mpr hok
      exact ⟨hfirst, (ih (hkeep s e s' hinv hside.1 hs' hfirst) hrest (hside.2 s' hs')).mpr
        (h s' hs')⟩

theorem along_iff_allowed {P : σ → ε → σ → Prop} (hinv : I s)
    (hkeep : ∀ u e v, I u → step u e = some v → P u e v → I v)
    (hstep : ∀ u e v, I u → step u e = some v → (P u e v ↔ ok u e))
    (hrun : run step s es = some t) : Along step P s es ↔ Allowed step ok s es :=
  along_iff_allowed_of_side hinv (fun u e v hu _ => hkeep u e v hu) (fun u e v hu _ => hstep u e v hu)
    hrun (allowed_any step s es)

theorem Reach.of_run (es : List ε)
    (hok : Allowed step ok s es) (hrun : run step s es = some t) : Reach step ok s t := by
  induction es generalizing s with
  | nil =>
      cases hrun
      exact .refl
  | cons e es ih =>
      obtain ⟨s', hstep, hrest⟩ := Option.bind_eq_some_iff.mp hrun
      exact (Reach.refl.tail hok.1 hstep).trans (ih (hok.2 s' hstep) hrest)

theorem Reachable.of_run (es : List ε) (hrun : run step s es = some t) : Reachable step s t :=
  Reach.of_run es (allowed_any step s es) hrun

end Runs
