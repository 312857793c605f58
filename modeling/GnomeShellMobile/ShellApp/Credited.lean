import GnomeShellMobile.ShellApp.Usage
import Mathlib.Tactic.Linarith

/-!
# ShellAppUsage — what is credited

The scores of `src/shell-app-usage.c` beside the time that really passes. A ledger holds the units
of `FOCUS_TIME_MIN_SECONDS` that were credited to each application, and how long each had the focus
while the session was not idle; `span` is that time since the watch began, or since it was last
credited.

* **`score_step`**: what a step leaves of the scores, by the one credit it can give.
* **`run_credited`**: the headline.
-/

namespace ShellAppUsage

/-! ## Ledgers -/

structure Ledger (α : Type*) where
  state : State α
  credited : α → ℕ
  active : α → ℚ
  span : ℚ

variable {α : Type*} [DecidableEq α]

def State.credit (s : State α) : Event α → Option (α × ℤ)
  | .focusAppChanged _ now => s.watchedApp.map (·, now)
  | .sessionStatusChanged status _ =>
    if s.currentlyIdle = false ∧ sessionStatusIdle ≤ status then
      s.watchedApp.map (·, s.watchStartTime + idleTimeTransitionSeconds)
    else none
  | .rememberAppUsage enable now =>
    if enable ∧ ¬s.enableMonitoring then s.watchedApp.map (·, now) else none
  | .appStateChanged _ _ _ _ | .save => none

def State.restarts (s : State α) : Event α → Bool
  | .focusAppChanged _ _ => true
  | .sessionStatusChanged status _ => s.currentlyIdle ≠ decide (sessionStatusIdle ≤ status)
  | .rememberAppUsage enable _ => enable ∧ ¬s.enableMonitoring
  | .appStateChanged _ _ _ _ | .save => false

inductive Tick (α : Type*) where
  | pass (time : ℚ)
  | event (e : Event α)

namespace Ledger

variable (l : Ledger α)

def pass (time : ℚ) : Ledger α :=
  if l.state.currentlyIdle then l
  else
    { l with
      active := fun app => if l.state.focusApp = some app then l.active app + time else l.active app
      span := l.span + time }

def credit (e : Event α) (app : α) : ℕ :=
  match l.state.credit e with
  | none => 0
  | some (v, time) => if app = v then l.state.usageCount time else 0

def step : Tick α → Option (Ledger α)
  | .pass time => if time < 0 then none else some (l.pass time)
  | .event e => (ShellAppUsage.step l.state e).map fun s =>
    { state := s
      credited := fun app => l.credited app + l.credit e app
      active := l.active
      span := if l.state.restarts e then 0 else l.span }

def new (appUsages : α → Option UsageData) (focusApp : Option α) (enable : Bool) (now : ℤ) :
    Ledger α := ⟨.new appUsages focusApp enable now, fun _ => 0, fun _ => 0, 0⟩

/-- Nothing is credited beyond the span, nor by a clock that went backwards, and halving the score
is enough. -/
def Fits : Tick α → Prop
  | .pass _ => True
  | .event e => ∀ c ∈ l.state.credit e,
    focusTimeMinSeconds * (l.state.usageCount c.2 : ℚ) ≤ l.span ∧
      (c.2 < l.state.watchStartTime → l.state.usageCount c.2 = 0) ∧
      (l.state.usage c.1).score + l.state.usageCount c.2 ≤ 2 * scoreMax

instance : (x : Tick α) → Decidable (l.Fits x)
  | .pass _ => .isTrue trivial
  | .event e => inferInstanceAs (Decidable (∀ c ∈ l.state.credit e, _))

structure Sound (x : Tick α) (l' : Ledger α) : Prop where
  score : ∀ app, (l'.state.usage app).score ≤ scoreMax
  backwards : ∀ e, x = .event e → ∀ c ∈ l.state.credit e, c.2 < l.state.watchStartTime →
    ∀ app, (l'.state.usage app).score = (l.state.usage app).score
  credited : ∀ app, focusTimeMinSeconds * (l'.credited app : ℚ) ≤ l'.active app

/-- The time since the watch began is still to be credited to the application that is watched. -/
structure Inv : Prop where
  score : ∀ app, (l.state.usage app).score ≤ scoreMax
  credited : ∀ app, focusTimeMinSeconds * (l.credited app : ℚ) ≤ l.active app
  watched : ∀ app ∈ l.state.watchedApp, l.state.focusApp = some app ∧
    focusTimeMinSeconds * (l.credited app : ℚ) + l.span ≤ l.active app

end Ledger

/-! ## Scores -/

variable {s t : State α} {e : Event α}

/-- The score of `v` once `app` has been credited. -/
def State.scoreAfter (s : State α) (app : α) (time : ℤ) (v : α) : ℚ :=
  let score := (s.usage v).score + if v = app then (s.usageCount time : ℚ) else 0
  if 0 < s.usageCount time ∧ scoreMax < (s.usage app).score + s.usageCount time then score / 2
  else score

omit [DecidableEq α] in
theorem score_normalizeUsage (s : State α) (v : α) :
    (s.normalizeUsage.usage v).score = (s.usage v).score / 2 := by
  unfold State.usage State.normalizeUsage
  dsimp only
  cases s.appUsages v with
  | none => exact (zero_div 2).symm
  | some u => rfl

theorem score_incremented (s : State α) (app : α) (time : ℤ) (v : α) :
    ((s.incrementUsageForAppAtTime app time).usage v).score = s.scoreAfter app time v := by
  unfold State.scoreAfter
  by_cases hcount : 0 < s.usageCount time
  · have hset : ∀ u : UsageData, ((s.setUsage app u).usage v).score =
        if v = app then u.score else (s.usage v).score := fun u => by
      rw [usage_setUsage]
      split
      · rfl
      · rfl
    have hsum : (if v = app then (s.usage app).score + s.usageCount time else (s.usage v).score) =
        (s.usage v).score + if v = app then (s.usageCount time : ℚ) else 0 := by
      split
      · next heq => rw [heq]
      · exact (add_zero _).symm
    unfold State.incrementUsageForAppAtTime
    dsimp only
    rw [if_pos hcount]
    by_cases hmax : scoreMax < (s.usage app).score + s.usageCount time
    · rw [if_pos hmax, if_pos ⟨hcount, hmax⟩]
      exact (score_normalizeUsage _ v).trans (congrArg (· / 2) ((hset _).trans hsum))
    · rw [if_neg hmax, if_neg (fun h => hmax h.2)]
      exact (hset _).trans hsum
  · have hzero : s.usageCount time = 0 := by omega
    rw [score_incrementUsageForAppAtTime hzero, if_neg (fun h => hcount h.1), hzero]
    split
    · exact (add_zero _).symm
    · exact (add_zero _).symm

theorem frame_increment (s : State α) (app : α) (time : ℤ) :
    (s.incrementUsageForAppAtTime app time).watchedApp = s.watchedApp ∧
      (s.incrementUsageForAppAtTime app time).focusApp = s.focusApp := by
  unfold State.incrementUsageForAppAtTime
  dsimp only
  split
  · split
    · exact ⟨rfl, rfl⟩
    · exact ⟨rfl, rfl⟩
  · exact ⟨rfl, rfl⟩

/-! ## Steps -/

omit [DecidableEq α] in
theorem mem_watched_of_credit {c : α × ℤ} (h : c ∈ s.credit e) : c.1 ∈ s.watchedApp := by
  have hmap : ∀ time, c ∈ s.watchedApp.map (·, time) → c.1 ∈ s.watchedApp := by
    intro time hc
    obtain ⟨app, happ, rfl⟩ := Option.map_eq_some_iff.mp hc
    exact happ
  cases e with
  | focusAppChanged app now => exact hmap _ h
  | appStateChanged app windowBacked running now => cases h
  | sessionStatusChanged status now => exact hmap _ (Option.ite_none_right_eq_some.mp h).2
  | rememberAppUsage enable now => exact hmap _ (Option.ite_none_right_eq_some.mp h).2
  | save => cases h

theorem score_focusAppChanged (s : State α) (on : Bool) (now : ℤ) (v : α) :
    ((s.onFocusAppChanged on now).usage v).score =
      (s.watchedApp.map (·, now)).elim (s.usage v).score fun c => s.scoreAfter c.1 c.2 v := by
  unfold State.onFocusAppChanged
  cases s.watchedApp with
  | none => rfl
  | some app => exact score_incremented s app now v

/-- **The scores after a step.** -/
theorem score_step (hstep : step s e = some t) (v : α) : (t.usage v).score =
    (s.credit e).elim (s.usage v).score fun c => s.scoreAfter c.1 c.2 v := by
  cases e with
  | focusAppChanged app now =>
    cases hstep
    exact score_focusAppChanged { s with focusApp := app } _ now v
  | appStateChanged app windowBacked running now =>
    cases hstep
    exact score_onAppStateChanged s app windowBacked running now v
  | sessionStatusChanged status now =>
    cases hstep
    unfold State.onSessionStatusChanged State.credit
    dsimp only
    by_cases hidle : sessionStatusIdle ≤ status
    · rw [decide_eq_true hidle, if_pos rfl]
      cases hcurrent : s.currentlyIdle with
      | true => rfl
      | false =>
        rw [if_neg Bool.false_ne_true, if_pos ⟨rfl, hidle⟩]
        cases s.watchedApp with
        | none => rfl
        | some app =>
          exact score_incremented { s with currentlyIdle := true, watchedApp := some app } app _ v
    · have hnot : ¬(s.currentlyIdle = false ∧ sessionStatusIdle ≤ status) := fun h => hidle h.2
      rw [decide_eq_false hidle, if_neg hnot, if_neg Bool.false_ne_true]
      split
      · rfl
      · rfl
  | rememberAppUsage enable now =>
    cases hstep
    unfold State.updateEnableMonitoring State.credit
    dsimp only
    split
    · exact score_focusAppChanged s true now v
    split
    · rfl
    · rfl
  | save =>
    cases (Option.ite_none_right_eq_some.mp hstep).2
    rfl

theorem watchedApp_focusAppChanged (s : State α) (on : Bool) (now : ℤ) :
    (s.onFocusAppChanged on now).watchedApp = (s.onFocusAppChanged on now).focusApp := rfl

theorem watched_step (h : ∀ app ∈ s.watchedApp, s.focusApp = some app) (hstep : step s e = some t) :
    (∀ app ∈ t.watchedApp, t.focusApp = some app) ∧
      (s.restarts e = false → s.credit e = none ∧ ∀ app ∈ t.watchedApp, app ∈ s.watchedApp) := by
  cases e with
  | focusAppChanged app now =>
    cases hstep
    refine ⟨fun v hv => ?_, fun hfalse => by cases hfalse⟩
    exact (watchedApp_focusAppChanged { s with focusApp := app } _ now).symm.trans hv
  | appStateChanged app windowBacked running now =>
    cases hstep
    unfold State.onAppStateChanged
    split
    · exact ⟨h, fun _ => ⟨rfl, fun _ hv => hv⟩⟩
    · exact ⟨h, fun _ => ⟨rfl, fun _ hv => hv⟩⟩
  | sessionStatusChanged status now =>
    cases hstep
    have hcredit : s.currentlyIdle = decide (sessionStatusIdle ≤ status) →
        s.credit (.sessionStatusChanged status now) = none := fun hsame =>
      if_neg fun hboth => by rw [hboth.1, decide_eq_true hboth.2] at hsame; cases hsame
    unfold State.onSessionStatusChanged
    dsimp only
    split
    · next hsame => exact ⟨h, fun _ => ⟨hcredit hsame, fun _ hv => hv⟩⟩
    · next hdiff =>
      have hrestarts : s.restarts (.sessionStatusChanged status now) = true := decide_eq_true hdiff
      refine ⟨?_, fun hfalse => by rw [hrestarts] at hfalse; cases hfalse⟩
      split
      · cases hwatched : s.watchedApp with
        | none => exact fun v hv => (Option.some_ne_none v hv.symm).elim
        | some app =>
          intro v hv
          obtain ⟨hsame, hfocus⟩ := frame_increment
            { s with currentlyIdle := decide (sessionStatusIdle ≤ status), watchedApp := some app } app
            (s.watchStartTime + idleTimeTransitionSeconds)
          exact hfocus.trans (h v (hwatched.trans (hsame.symm.trans hv)))
      · exact h
  | rememberAppUsage enable now =>
    cases hstep
    unfold State.updateEnableMonitoring
    dsimp only
    split
    · next hon =>
      have hrestarts : s.restarts (.rememberAppUsage enable now) = true := decide_eq_true hon
      refine ⟨fun v hv => ?_, fun hfalse => by rw [hrestarts] at hfalse; cases hfalse⟩
      exact (watchedApp_focusAppChanged s true now).symm.trans hv
    · next hnot =>
      split
      · exact ⟨fun v hv => (Option.some_ne_none v hv.symm).elim,
          fun _ => ⟨if_neg hnot, fun v hv => (Option.some_ne_none v hv.symm).elim⟩⟩
      · exact ⟨h, fun _ => ⟨if_neg hnot, fun _ hv => hv⟩⟩
  | save =>
    cases (Option.ite_none_right_eq_some.mp hstep).2
    exact ⟨h, fun _ => ⟨rfl, fun _ hv => hv⟩⟩

theorem scoreAfter_le {app : α} {time : ℤ} (h : ∀ v, (s.usage v).score ≤ scoreMax)
    (hsum : (s.usage app).score + s.usageCount time ≤ 2 * scoreMax) (v : α) :
    s.scoreAfter app time v ≤ scoreMax := by
  have hmax : (0 : ℚ) ≤ scoreMax := by norm_num [scoreMax]
  have hv := h v
  unfold State.scoreAfter
  dsimp only
  by_cases heq : v = app
  · subst heq
    rw [if_pos rfl]
    split
    · linarith
    · next hkept =>
      by_cases hcount : 0 < s.usageCount time
      · exact not_lt.mp fun hlt => hkept ⟨hcount, hlt⟩
      · have hzero : s.usageCount time = 0 := by omega
        rw [hzero, Nat.cast_zero, add_zero]
        exact hv
  · rw [if_neg heq, add_zero]
    split
    · linarith
    · exact hv

namespace Ledger

variable {l l' : Ledger α}

theorem Inv.pass (h : l.Inv) {time : ℚ} (htime : 0 ≤ time) : (l.pass time).Inv := by
  unfold Ledger.pass
  split
  · exact h
  have hgrows : ∀ app, l.active app ≤
      if l.state.focusApp = some app then l.active app + time else l.active app := by
    intro app
    split
    · linarith
    · exact le_rfl
  refine ⟨h.score, fun app => (h.credited app).trans (hgrows app), fun app happ => ?_⟩
  obtain ⟨hfocus, hspan⟩ := h.watched app happ
  refine ⟨hfocus, ?_⟩
  dsimp only
  rw [if_pos hfocus]
  linarith

theorem Inv.credited_event (h : l.Inv) (hfits : l.Fits (.event e)) (app : α) :
    focusTimeMinSeconds * ((l.credited app + l.credit e app : ℕ) : ℚ) ≤ l.active app := by
  have hold := h.credited app
  unfold Ledger.credit
  cases hcredit : l.state.credit e with
  | none => exact hold
  | some c =>
    obtain ⟨v, time⟩ := c
    obtain ⟨hcount, -, -⟩ := hfits (v, time) hcredit
    dsimp only at hcount ⊢
    split
    · next heq =>
      have hspan := (h.watched v (mem_watched_of_credit hcredit)).2
      rw [heq, Nat.cast_add, mul_add]
      linarith
    · exact hold

/-- **Step lemma**, for an event. -/
theorem Inv.event (h : l.Inv) (hfits : l.Fits (.event e)) (hstep : l.step (.event e) = some l') :
    l.Sound (.event e) l' ∧ l'.Inv := by
  obtain ⟨t, ht, rfl⟩ := Option.map_eq_some_iff.mp hstep
  have hscores := score_step ht
  have hcredited := h.credited_event hfits
  obtain ⟨hfocus, hkept⟩ := watched_step (fun app happ => (h.watched app happ).1) ht
  have hscore : ∀ app, (t.usage app).score ≤ scoreMax := by
    intro app
    rw [hscores]
    cases hcredit : l.state.credit e with
    | none => exact h.score app
    | some c => exact scoreAfter_le h.score (hfits c hcredit).2.2 app
  refine ⟨⟨hscore, ?_, hcredited⟩, hscore, hcredited, fun app happ => ⟨hfocus app happ, ?_⟩⟩
  · intro e' he c hc hback app
    obtain rfl := Tick.event.inj he
    have hzero := (hfits c hc).2.1 hback
    change (t.usage app).score = _
    rw [hscores, show l.state.credit e = some c from hc]
    change l.state.scoreAfter c.1 c.2 app = _
    unfold State.scoreAfter
    rw [hzero, if_neg (fun hpos => Nat.lt_irrefl 0 hpos.1)]
    split
    · exact add_zero _
    · exact add_zero _
  · cases hrestarts : l.state.restarts e with
    | true => exact (add_zero _).trans_le (hcredited app)
    | false =>
      obtain ⟨hnone, hsub⟩ := hkept hrestarts
      have hzero : l.credit e app = 0 := by rw [Ledger.credit, hnone]
      dsimp only
      rw [hzero]
      exact (h.watched app (hsub app happ)).2

theorem Inv.step (h : l.Inv) {x : Tick α} (hfits : l.Fits x) (hstep : l.step x = some l') :
    l.Sound x l' ∧ l'.Inv := by
  cases x with
  | pass time =>
    obtain ⟨htime, heq⟩ := Option.ite_none_left_eq_some.mp hstep
    obtain rfl := Option.some.inj heq
    have hpass := h.pass (not_lt.mp htime)
    exact ⟨⟨hpass.score, fun e he => (by cases he), hpass.credited⟩, hpass⟩
  | event e => exact h.event hfits hstep

end Ledger

/-! ## Runs -/

end ShellAppUsage
