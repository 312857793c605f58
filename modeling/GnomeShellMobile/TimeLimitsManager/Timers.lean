import GnomeShellMobile.TimeLimitsManager.LimitState

/-!
# TimeLimitsManager — the timers

An update sets a timer for the start of tomorrow if the limit is reached, and for the moment at which
it will be reached if the user is active. Both are still to come, as long as the day that the clock
gives is the one now lies in, so no timer is set for less than a second.

* **`timeout`**: what an update sets the timer to.
* **`PendingUntil`**: a timer is pending that expires by a given time.
* **`timers_of_reach`**: the timers of a run, and what is pending after an update.
-/

namespace TimeLimitsManager

/-- The time lies in the day that `_getStartOfTodaySecs` gives for it. -/
def LocalTime.InDay (tz : LocalTime) (nowSecs : Int) : Prop :=
  (tz.getStartOfTodaySecs nowSecs).1 ≤ nowSecs ∧ nowSecs < (tz.getStartOfTodaySecs nowSecs).2
deriving Decidable

theorem calculateActiveTimeTodaySecs_le_add {now t : Int} (h : now ≤ t) (S : Int)
    (l : List Transition) :
    calculateActiveTimeTodaySecs t S l ≤ calculateActiveTimeTodaySecs now S l + (t - now) := by
  simp only [calculateActiveTimeTodaySecs]
  split <;> omega

namespace State

variable {tz : LocalTime} {s : State}

/-! ## What an update sets -/

/-- The timeout that `_updateState` schedules, if it does. -/
def timeout (tz : LocalTime) (s : State) : Option Int :=
  if s.limits.Reached tz then
    some ((tz.getStartOfTodaySecs s.clock.realTimeSecs).2 - s.clock.realTimeSecs)
  else if s.userState = .active ∧ s.settings.dailyLimitEnabled = true then
    some (s.settings.dailyLimitSeconds -
      calculateActiveTimeTodaySecs s.clock.realTimeSecs (s.limits.startOfToday tz)
        s.stateTransitions)
  else none

theorem timers_saveState (s : State) (n : TimeLimitsState) (before : Limits) :
    ((s.saveState n).logUpdate before).timers = s.timers ∧
      ((s.saveState n).logUpdate before).timerId = s.timerId := by
  rw [saveState]
  split <;> exact ⟨rfl, rfl⟩

theorem updateState_timers (tz : LocalTime) (s : State) : match s.timeout tz with
    | some t => (s.updateState tz).timers = (s.scheduleUpdateState t).timers ∧
        (s.updateState tz).timerId = some s.nextId
    | none => (s.updateState tz).timers = s.timers ∧ (s.updateState tz).timerId = s.timerId := by
  have hreached : s.limits.Reached tz ↔ s.settings.dailyLimitEnabled = true ∧
      (s.settings.dailyLimitSeconds : Int) ≤ calculateActiveTimeTodaySecs s.clock.realTimeSecs
        (tz.getStartOfTodaySecs s.clock.realTimeSecs).1 s.stateTransitions := Iff.rfl
  rw [timeout]
  by_cases hr : s.limits.Reached tz
  · simp only [updateState, if_pos (hreached.mp hr), if_pos hr]
    exact timers_saveState _ _ _
  · simp only [updateState, if_neg (hreached.not.mp hr), if_neg hr]
    by_cases hu : s.userState = .active
    · by_cases he : s.settings.dailyLimitEnabled = true
      · simp only [hu, he, and_self, if_true]
        exact timers_saveState _ _ _
      · simp only [hu, he, and_false, if_true, Bool.false_eq_true, if_false]
        exact timers_saveState _ _ _
    · simp only [hu, false_and, if_false]
      exact timers_saveState _ _ _

theorem one_le_timeout (hday : tz.InDay s.clock.realTimeSecs) {t : Int}
    (ht : s.timeout tz = some t) : 1 ≤ t := by
  have htomorrow := hday.2
  rw [timeout] at ht
  split at ht
  · cases ht
    omega
  · next hnot =>
      split at ht
      · next hactive =>
          cases ht
          have hbelow : ¬ (s.settings.dailyLimitSeconds : Int) ≤
              calculateActiveTimeTodaySecs s.clock.realTimeSecs (s.limits.startOfToday tz)
                s.stateTransitions := fun hle => hnot ⟨hactive.2, hle⟩
          omega
      · cases ht

/-! ## What is pending -/

/-- The timer of `_timerId` is pending, for at least a second from now and until `deadline` at
most. -/
def PendingUntil (s : State) (deadline : Int) : Prop :=
  ∃ id timeout, s.timerId = some id ∧ (id, timeout) ∈ s.timers ∧ 1 ≤ timeout ∧
    s.clock.realTimeSecs + timeout ≤ deadline

/-- What is to be pending after an update: with the user active and the limit enabled, a timer for
any time at which the active time will be at the limit, if nothing changes until then; and for the
start of tomorrow once it is reached. -/
structure Pending (tz : LocalTime) (s : State) : Prop where
  active : s.userState = .active → s.settings.dailyLimitEnabled = true → ¬ s.limits.Reached tz →
    ∃ id timeout, s.timerId = some id ∧ (id, timeout) ∈ s.timers ∧ 1 ≤ timeout ∧
      ∀ t, s.clock.realTimeSecs ≤ t →
        (s.settings.dailyLimitSeconds : Int) ≤
          calculateActiveTimeTodaySecs t (s.limits.startOfToday tz) s.stateTransitions →
        s.clock.realTimeSecs + timeout ≤ t
  reached : s.userState = .active → s.limits.Reached tz →
    s.PendingUntil (tz.getStartOfTodaySecs s.clock.realTimeSecs).2

theorem updateState_facts (tz : LocalTime) (s : State) :
    (s.updateState tz).clock = s.clock ∧ (s.updateState tz).settings = s.settings ∧
      (s.updateState tz).userState = s.userState ∧
      (s.updateState tz).stateTransitions = s.stateTransitions := by
  obtain ⟨scheduled, hscheduled, heq⟩ := s.updateState_cases tz
  rw [heq, logUpdate, saveState]
  rcases hscheduled with rfl | ⟨t, rfl⟩ <;> split <;> exact ⟨rfl, rfl, rfl, rfl⟩

theorem updateState_pending (hday : tz.InDay s.clock.realTimeSecs) : (s.updateState tz).Pending tz := by
  obtain ⟨hclock, hsettings, huser, htransitions⟩ := updateState_facts tz s
  have hstart : (s.updateState tz).limits.startOfToday tz = s.limits.startOfToday tz := by
    show (tz.getStartOfTodaySecs (s.updateState tz).clock.realTimeSecs).1 = _
    rw [hclock]
    rfl
  have hreached : (s.updateState tz).limits.Reached tz ↔ s.limits.Reached tz := by
    show (s.updateState tz).settings.dailyLimitEnabled = true ∧ _ ≤ calculateActiveTimeTodaySecs
      (s.updateState tz).clock.realTimeSecs ((s.updateState tz).limits.startOfToday tz) _ ↔ _
    rw [hstart, hclock, hsettings]
    show _ ∧ ((s.updateState tz).settings.dailyLimitSeconds : Int) ≤
      calculateActiveTimeTodaySecs _ _ (s.updateState tz).stateTransitions ↔ _
    rw [hsettings, htransitions]
    rfl
  have htimers := updateState_timers tz s
  have hmem : ∀ t, (s.nextId, t) ∈ (s.scheduleUpdateState t).timers := fun t => List.mem_cons_self
  refine ⟨fun hactive henabled hnot => ?_, fun _ hr => ?_⟩
  · -- what is left of the limit
    rw [hreached] at hnot
    rw [huser] at hactive
    rw [hsettings] at henabled
    have htimeout : s.timeout tz = some (s.settings.dailyLimitSeconds -
        calculateActiveTimeTodaySecs s.clock.realTimeSecs (s.limits.startOfToday tz)
          s.stateTransitions) := by
      rw [timeout, if_neg hnot, if_pos ⟨hactive, henabled⟩]
    have hone := one_le_timeout hday htimeout
    rw [htimeout] at htimers
    refine ⟨s.nextId, _, htimers.2, htimers.1 ▸ hmem _, hone, fun t ht hlimit => ?_⟩
    rw [hclock] at ht ⊢
    rw [hsettings, hstart, htransitions] at hlimit
    have hgrows := calculateActiveTimeTodaySecs_le_add ht (s.limits.startOfToday tz) s.stateTransitions
    omega
  · -- what is left of today
    rw [hreached] at hr
    have htimeout : s.timeout tz =
        some ((tz.getStartOfTodaySecs s.clock.realTimeSecs).2 - s.clock.realTimeSecs) := by
      rw [timeout, if_pos hr]
    have hone := one_le_timeout hday htimeout
    rw [htimeout] at htimers
    refine ⟨s.nextId, _, htimers.2, htimers.1 ▸ hmem _, hone, ?_⟩
    rw [hclock]
    omega

/-! ## The timers of a run -/

/-- If every update was made within the day that the clock gave, then every timer that is pending was
set for at least a second. -/
def TimersPositive (tz : LocalTime) (s : State) : Prop :=
  (∀ c ∈ s.updates, tz.InDay c.before.nowSecs) → ∀ t ∈ s.timers, 1 ≤ t.2

theorem updates_updateState (tz : LocalTime) (s : State) :
    ∃ after, (s.updateState tz).updates = ⟨s.limits, after⟩ :: s.updates := by
  obtain ⟨scheduled, hscheduled, heq⟩ := s.updateState_cases tz
  refine ⟨(scheduled.saveState (s.nextState tz)).limits, ?_⟩
  rw [heq, logUpdate, saveState]
  rcases hscheduled with rfl | ⟨t, rfl⟩ <;> split <;> rfl

theorem TimersPositive.updateState (h : s.TimersPositive tz) :
    (s.updateState tz).TimersPositive tz := by
  intro hdays t ht
  obtain ⟨after, hupdates⟩ := updates_updateState tz s
  rw [hupdates] at hdays
  have hday : tz.InDay s.clock.realTimeSecs := hdays _ List.mem_cons_self
  have hold := h fun c hc => hdays c (List.mem_cons_of_mem _ hc)
  have htimers := updateState_timers tz s
  cases htimeout : s.timeout tz with
  | none =>
      rw [htimeout] at htimers
      exact hold t (htimers.1 ▸ ht)
  | some d =>
      rw [htimeout] at htimers
      rw [htimers.1] at ht
      rcases List.mem_cons.mp ht with rfl | ht
      · exact one_le_timeout hday htimeout
      · exact hold t (List.mem_filter.mp ht).1

theorem timersPositive_kept (tz : LocalTime) : KeptByUpdates tz (TimersPositive tz) where
  congr h hupdates htimers hdays t ht := h (hupdates ▸ hdays) t (htimers ht)
  updateState := TimersPositive.updateState

/-- **The timers.** After an update within the day that the clock gives, whatever state it found, a
timer is pending for the limit while the user is active and it is not reached, and for the start of
tomorrow once it is. In a run whose updates were all made so, no pending timer was set for less than
a second. -/
theorem timers_of_reach (tz : LocalTime) :
    (∀ s : State, tz.InDay s.clock.realTimeSecs → (s.updateState tz).Pending tz) ∧
      ∀ settings clock login file s,
        Runs.Reachable (step tz) (start tz settings clock login file) s →
        (∀ c ∈ s.updates, tz.InDay c.before.nowSecs) → ∀ t ∈ s.timers, 1 ≤ t.2 :=
  ⟨fun _ hday => updateState_pending hday, fun _ _ _ _ _ hreach =>
    (timersPositive_kept tz).of_reachable (fun _ _ ht => absurd ht List.not_mem_nil) hreach⟩

/-- The limit of ten seconds is reached and the user goes away. -/
theorem timers_limitReachedAndAway : (tenSeconds.updateState utc).Pending utc ∧
      ∃ s, Runs.run (step utc) tenSeconds limitReachedAndAway = some s ∧ s.timers ≠ [] ∧
        ∀ t ∈ s.timers, 1 ≤ t.2 := by
  obtain ⟨s, hrun⟩ := Option.isSome_iff_exists.mp
    (by decide : (Runs.run (step utc) tenSeconds limitReachedAndAway).isSome)
  have hfacts : ∀ s ∈ Runs.run (step utc) tenSeconds limitReachedAndAway,
      s.timers ≠ [] ∧ ∀ c ∈ s.updates, utc.InDay c.before.nowSecs := by decide
  obtain ⟨htimers, hdays⟩ := hfacts s hrun
  exact ⟨(timers_of_reach utc).1 tenSeconds (by decide), s, hrun, htimers,
    (timers_of_reach utc).2 _ _ _ _ s (.of_run _ hrun) hdays⟩

end State

end TimeLimitsManager
