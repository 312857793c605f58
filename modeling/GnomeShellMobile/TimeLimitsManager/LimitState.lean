import GnomeShellMobile.TimeLimitsManager.StoredHistory
import GnomeShellMobile.TimeLimitsManager.Kept

/-!
# TimeLimitsManager — the limit state

`_updateState` decides anew whether the limit is reached, except in one branch: with the user
inactive and the limit not reached it keeps the state it finds. That is right unless it finds
`LIMIT_REACHED`, from earlier on the same day; then the limit was raised, disabled, or less
active time is counted than before, and the state stays `LIMIT_REACHED`.

* `Limits.Right` — the state is the one the limit and the active time call for.
* `Limits.Stuck` — the branch above is taken and keeps a `LIMIT_REACHED` that is no longer right.
* `Limits.AfterEpoch` — the times are those of a wall clock that runs after the epoch.
-/

namespace TimeLimitsManager

namespace Limits

variable (tz : LocalTime) (l : Limits)

def startOfToday : Int := (tz.getStartOfTodaySecs l.nowSecs).1

def Reached : Prop :=
  l.settings.dailyLimitEnabled = true ∧
    (l.settings.dailyLimitSeconds : Int) ≤
      calculateActiveTimeTodaySecs l.nowSecs (l.startOfToday tz) l.stateTransitions
deriving Decidable

/-- `LIMIT_REACHED` exactly if the limit is reached, and `ACTIVE` otherwise. -/
structure Right : Prop where
  limitReached : l.state = .limitReached ↔ l.Reached tz
  active : ¬ l.Reached tz → l.state = .active

/-- `LIMIT_REACHED` since some time of today, the user inactive, and the limit not reached. -/
def Stuck : Prop :=
  l.state = .limitReached ∧ l.userState = .inactive ∧
    l.startOfToday tz ≤ l.lastStateChangeTimeSecs ∧ ¬ l.Reached tz
deriving Decidable

def AfterEpoch : Prop :=
  0 < l.nowSecs ∧ 0 < l.startOfToday tz ∧ ∀ e ∈ l.stateTransitions, 0 ≤ e.wallTimeSecs
deriving Decidable

end Limits

/-! ## When the limit was reached -/

section ReachedAt

variable {limit now S activeTime start : Int} {l : List Transition}

theorem limitReachedLoop_inr {acc acc' : Int × Int}
    (h : limitReachedLoop limit l acc = .inr acc') : l.foldl countTransition acc = acc' := by
  induction l generalizing acc with
  | nil =>
      cases h
      rfl
  | cons e r ih =>
      rw [limitReachedLoop] at h
      split at h
      · cases h
      · exact ih h

theorem limitReachedLoop_pos (hl : ∀ e ∈ l, 0 ≤ e.wallTimeSecs) (hacc : activeTime < limit)
    (hstart : 0 ≤ start) : (∀ t, limitReachedLoop limit l (activeTime, start) = .inl t → 0 < t) ∧
      ∀ a b, limitReachedLoop limit l (activeTime, start) = .inr (a, b) → a < limit ∧ 0 ≤ b := by
  induction l generalizing activeTime start with
  | nil =>
      refine ⟨fun t h => ?_, fun a b h => ?_⟩
      · cases h
      · cases h
        exact ⟨hacc, hstart⟩
  | cons e r ih =>
      have he : 0 ≤ e.wallTimeSecs := hl e List.mem_cons_self
      have hr : ∀ x ∈ r, 0 ≤ x.wallTimeSecs := fun x hx => hl x (List.mem_cons_of_mem _ hx)
      rw [limitReachedLoop, countTransition]
      by_cases hnew : e.newState = .active
      · simpa only [if_pos hnew, if_neg hacc.not_ge] using ih hr hacc he
      · rw [if_neg hnew]
        by_cases hold : e.oldState = .active
        · rw [if_pos hold]
          dsimp only
          split
          · refine ⟨fun t h => ?_, fun a b h => by cases h⟩
            cases h
            omega
          · exact ih hr (by omega) hstart
        · simpa only [if_neg hold, if_neg hacc.not_ge] using ih hr hacc hstart

theorem le_of_transitionsToday {e : Transition} {r : List Transition}
    (h : transitionsToday S l = e :: r) : S ≤ e.wallTimeSecs := by
  induction l with
  | nil => cases h
  | cons a l ih =>
      rcases lt_or_ge a.wallTimeSecs S with ha | ha
      · rw [transitionsToday_of_lt ha] at h
        exact ih h
      · rw [transitionsToday_of_le ha] at h
        cases h
        exact ha

theorem mem_of_transitionsToday {e : Transition} (h : e ∈ transitionsToday S l) : e ∈ l :=
  (List.dropWhile_suffix _).subset h

theorem limitReachedLoop_zero {e : Transition} {r : List Transition} (hS : 0 < S)
    (he : S ≤ e.wallTimeSecs) : ∃ t, limitReachedLoop 0 (e :: r) (0, S) = .inl t ∧ 0 < t := by
  rw [limitReachedLoop, countTransition]
  by_cases hnew : e.newState = .active
  · exact ⟨_, by rw [if_pos hnew, if_pos le_rfl], by dsimp only; omega⟩
  · rw [if_neg hnew]
    by_cases hold : e.oldState = .active
    · refine ⟨_, by rw [if_pos hold, if_pos (by dsimp only; omega)], ?_⟩
      dsimp only
      omega
    · exact ⟨_, by rw [if_neg hold, if_pos le_rfl], by dsimp only; omega⟩

theorem calculateDailyLimitReachedAtSecs_pos (hlimit : 0 ≤ limit) (hnow : 0 < now) (hS : 0 < S)
    (hl : ∀ e ∈ l, 0 ≤ e.wallTimeSecs) (hreached : limit ≤ calculateActiveTimeTodaySecs now S l) :
    0 < calculateDailyLimitReachedAtSecs now limit S l := by
  have hend (a b : Int)
      (h : limitReachedLoop limit (transitionsToday S l) (0, S) = .inr (a, b)) :
      limit ≤ if endsActive l then a + max (now - b) 0 else a := by
    rwa [calculateActiveTimeTodaySecs, limitReachedLoop_inr h] at hreached
  rw [calculateDailyLimitReachedAtSecs]
  rcases hlimit.eq_or_lt with rfl | hlimit
  · cases htoday : transitionsToday S l with
    | nil =>
        cases hends : endsActive l with
        | false => simpa [limitReachedLoop, hends] using hnow
        | true =>
            simp only [limitReachedLoop, if_true]
            split <;> omega
    | cons e r =>
        obtain ⟨t, ht, hpos⟩ := limitReachedLoop_zero (r := r) hS (le_of_transitionsToday htoday)
        rwa [ht]
  · have hloop := limitReachedLoop_pos (l := transitionsToday S l)
      (fun e he => hl e (mem_of_transitionsToday he)) hlimit hS.le
    split
    · next t ht => exact hloop.1 t ht
    · next a b hab =>
        have hlt := hloop.2 a b hab
        have hle := hend a b hab
        cases hends : endsActive l with
        | false =>
            rw [hends, if_neg Bool.false_ne_true] at hle
            exact absurd hle hlt.1.not_ge
        | true =>
            rw [hends, if_pos rfl] at hle
            simp only [if_true, if_pos hle]
            omega

end ReachedAt

/-! ## One update -/

namespace State

variable {tz : LocalTime} {s : State}

def nextState (tz : LocalTime) (s : State) : TimeLimitsState :=
  if s.limits.Reached tz then .limitReached
  else if s.userState = .active ∨ s.lastStateChangeTimeSecs < s.limits.startOfToday tz then .active
  else s.state

theorem updateState_cases (tz : LocalTime) (s : State) :
    ∃ scheduled, (scheduled = s ∨ ∃ t, scheduled = s.scheduleUpdateState t) ∧
      s.updateState tz = (scheduled.saveState (s.nextState tz)).logUpdate s.limits := by
  have hreached : s.limits.Reached tz ↔ s.settings.dailyLimitEnabled = true ∧
      (s.settings.dailyLimitSeconds : Int) ≤ calculateActiveTimeTodaySecs s.clock.realTimeSecs
        (tz.getStartOfTodaySecs s.clock.realTimeSecs).1 s.stateTransitions := Iff.rfl
  have hS : s.limits.startOfToday tz = (tz.getStartOfTodaySecs s.clock.realTimeSecs).1 := rfl
  rw [nextState, hS]
  by_cases hr : s.limits.Reached tz
  · simp only [updateState, if_pos (hreached.mp hr), if_pos hr]
    exact ⟨_, .inr ⟨_, rfl⟩, rfl⟩
  · simp only [updateState, if_neg (hreached.not.mp hr), if_neg hr]
    by_cases hu : s.userState = .active
    · simp only [hu, if_true, true_or]
      refine ⟨_, ?_, rfl⟩
      split
      · exact .inr ⟨_, rfl⟩
      · exact .inl rfl
    · simp only [hu, if_false, false_or]
      exact ⟨s, .inl rfl, rfl⟩

theorem saveState_limits (s : State) (n : TimeLimitsState) : (s.saveState n).limits =
      { s.limits with
        state := n
        lastStateChangeTimeSecs := (s.saveState n).lastStateChangeTimeSecs } := by
  rw [saveState]
  split
  · rfl
  · next h =>
      rw [not_not] at h
      rw [h]
      rfl

end State

/-- What is claimed of a call of `_updateState` in the started machine. -/
def UpdateCall.Sound (tz : LocalTime) (c : UpdateCall) : Prop :=
  c.before.state ≠ .disabled →
    (c.after.Right tz ↔ ¬ c.before.Stuck tz) ∧
      (¬ c.before.Stuck tz → c.before.AfterEpoch tz → (c.after.dailyLimitTime tz).2 = [])

namespace Limits

variable {tz : LocalTime} {l : Limits}

theorem Right.dailyLimitTime (h : l.Right tz) (hepoch : l.AfterEpoch tz) :
    (l.dailyLimitTime tz).2 = [] := by
  obtain ⟨hnow, hS, hl⟩ := hepoch
  rw [Limits.dailyLimitTime]
  split
  · rfl
  · next hstate =>
      have hnot : ¬ l.Reached tz := by
        rw [← h.limitReached, hstate]
        decide
      cases hen : l.settings.dailyLimitEnabled with
      | false => rfl
      | true =>
          have hlt := not_le.mp (not_and.mp hnot hen)
          exact if_pos hlt.le
  · next hstate =>
      obtain ⟨hen, hle⟩ := h.limitReached.mp hstate
      have hpos := calculateDailyLimitReachedAtSecs_pos (Int.natCast_nonneg _) hnow hS hl hle
      simp only [hen, if_true, List.nil_append]
      exact if_pos hpos

end Limits

namespace State

variable {tz : LocalTime} {s : State}

theorem right_iff_not_stuck (hstarted : s.state ≠ .disabled) (last : Int) :
    ({ s.limits with state := s.nextState tz, lastStateChangeTimeSecs := last } : Limits).Right tz ↔
      ¬ s.limits.Stuck tz := by
  by_cases hr : s.limits.Reached tz
  · have hn : s.nextState tz = .limitReached := if_pos hr
    exact iff_of_true ⟨iff_of_true hn hr, fun hnot => absurd hr hnot⟩ fun hstuck =>
      hstuck.2.2.2 hr
  · by_cases hu : s.userState = .active ∨ s.lastStateChangeTimeSecs < s.limits.startOfToday tz
    · have hn : s.nextState tz = .active := (if_neg hr).trans (if_pos hu)
      refine iff_of_true ⟨iff_of_false ?_ hr, fun _ => hn⟩ fun ⟨_, huser, hlast, _⟩ => ?_
      · simp [hn]
      · rcases hu with hu | hu
        · rw [show s.userState = .inactive from huser] at hu
          cases hu
        · exact absurd hlast hu.not_ge
    · have hn : s.nextState tz = s.state := (if_neg hr).trans (if_neg hu)
      obtain ⟨huser, hlast⟩ := not_or.mp hu
      have huser : s.userState = .inactive := UserState.eq_of_ne (c := .active) huser (by decide)
      have hstuck : s.limits.Stuck tz ↔ s.state = .limitReached :=
        ⟨fun h => h.1, fun h => ⟨h, huser, not_lt.mp hlast, hr⟩⟩
      rw [hstuck]
      constructor
      · exact fun h heq => hr (h.limitReached.mp (hn.trans heq))
      · intro hne
        have hactive : s.state = .active := by
          cases hs : s.state with
          | disabled => exact absurd hs hstarted
          | active => rfl
          | limitReached => exact absurd hs hne
        refine ⟨iff_of_false ?_ hr, fun _ => hn.trans hactive⟩
        rw [hn]
        exact hne

theorem updateState_sound (scheduled : State) (hs : scheduled.limits = s.limits) :
    UpdateCall.Sound tz ⟨s.limits, (scheduled.saveState (s.nextState tz)).limits⟩ := by
  rw [saveState_limits, hs]
  intro hstarted
  refine ⟨right_iff_not_stuck hstarted _, fun hstuck hepoch => ?_⟩
  exact ((right_iff_not_stuck hstarted _).mpr hstuck).dailyLimitTime hepoch

/-! ## All updates of a run -/

/-- Every call of `_updateState` made so far is as claimed. -/
def UpdatesSound (tz : LocalTime) (s : State) : Prop := ∀ c ∈ s.updates, c.Sound tz

theorem UpdatesSound.updateState (h : s.UpdatesSound tz) : (s.updateState tz).UpdatesSound tz := by
  obtain ⟨scheduled, hscheduled, heq⟩ := s.updateState_cases tz
  have hlimits : scheduled.limits = s.limits ∧ scheduled.updates = s.updates := by
    rcases hscheduled with rfl | ⟨t, rfl⟩ <;> exact ⟨rfl, rfl⟩
  have hupdates : (scheduled.saveState (s.nextState tz)).updates = s.updates := by
    rw [saveState]
    split <;> exact hlimits.2
  rw [heq]
  intro c hc
  rcases List.mem_cons.mp hc with rfl | hc
  · exact updateState_sound scheduled hlimits.1
  · exact h c (hupdates ▸ hc)

theorem updatesSound_kept (tz : LocalTime) : KeptByUpdates tz (UpdatesSound tz) where
  congr h hupdates _ c hc := h c (hupdates ▸ hc)
  updateState := UpdatesSound.updateState

/-- In every run, every call of `_updateState` in the started machine leaves `LIMIT_REACHED` if
the limit is enabled and reached and `ACTIVE` otherwise, exactly if it does not keep a stale
`LIMIT_REACHED`; and then, with a clock after the epoch, the getter of `dailyLimitTime` has no
failing assertion right after it. -/
theorem limitState_of_reach {tz : LocalTime} {settings : Settings} {clock : Clock} {login : Login}
    {file : Option Contents} {s : State}
    (hreach : Runs.Reachable (step tz) (start tz settings clock login file) s) :
    ∀ c ∈ s.updates, c.before.state ≠ .disabled →
      (c.after.Right tz ↔ ¬ c.before.Stuck tz) ∧
        (¬ c.before.Stuck tz → c.before.AfterEpoch tz → (c.after.dailyLimitTime tz).2 = []) :=
  (updatesSound_kept tz).of_reachable (fun _ hc => absurd hc List.not_mem_nil) hreach

end State

def utc : LocalTime where
  threeOClock t := t / 86400 * 86400 + 10800
  addDays t n := t + n * 86400

namespace State

def tenSeconds : State :=
  start utc ⟨true, true, 10⟩ ⟨100000, 500⟩ {} none

def limitReachedAndAway : List Event :=
  [.resume 0 (some 0), .resume 0 (some 0), .resume 0 (some 0), .resume 0 (some 0),
    .resume 0 (some 7), .resume 0 (some 0), .pass 20, .timer 4, .propertiesChanged false true]

theorem limitState_limitReachedAndAway :
    ∃ s, Runs.run (step utc) tenSeconds limitReachedAndAway = some s ∧
      ∀ c ∈ s.updates, c.before.state ≠ .disabled →
        (c.after.Right utc ↔ ¬ c.before.Stuck utc) ∧
          (¬ c.before.Stuck utc → c.before.AfterEpoch utc →
            (c.after.dailyLimitTime utc).2 = []) := by
  obtain ⟨s, hrun⟩ := Option.isSome_iff_exists.mp
    (by decide : (Runs.run (step utc) tenSeconds limitReachedAndAway).isSome)
  exact ⟨s, hrun, limitState_of_reach (.of_run _ hrun)⟩

/-- Then the limit is disabled. -/
theorem not_right_limitDisabledWhileAway : ¬ ∀ s, Runs.Reachable (step utc) tenSeconds s →
      ∀ c ∈ s.updates, c.before.state ≠ .disabled → c.after.Right utc := by
  intro h
  have hrun : ∃ s, Runs.run (step utc) tenSeconds
        (limitReachedAndAway ++ [.changeSettings ⟨true, false, 10⟩]) = some s ∧
      ∃ c ∈ s.updates, c.before.state ≠ .disabled ∧ c.after.state = .limitReached ∧
        ¬ c.after.Reached utc := by
    decide
  obtain ⟨s, hrun, c, hc, hstarted, hstate, hnot⟩ := hrun
  exact hnot ((h s (.of_run _ hrun) c hc hstarted).limitReached.mp hstate)

end State

end TimeLimitsManager
