import GnomeShellMobile.TimeLimitsManager.ActiveTime

/-!
# TimeLimitsManager — the moment at which the limit is reached

`_calculateDailyLimitReachedAtSecs` goes over the transitions of today as the counting loop does, and
stops as soon as the count is at the limit. The time it gives is the first one up to which the active
time is the limit. 0 stands for a limit that is not reached, so the one moment that it cannot tell
from that is the epoch.

* **`Counted.limitReachedLoop`**: what the loop finds, from any turn of it on.
* **`calculateDailyLimitReachedAtSecs_spec`**: what the function returns.
-/

namespace TimeLimitsManager

open Timeline

variable {A : Set ℝ} {now S a limit : Int} {u : UserState} {l r : List Transition} {acc : Int × Int}

/-- While the user is active the limit is reached when the time that is left of it has passed, if
this is up to `b` and there is no transition before `b`. -/
theorem Counted.firstAt (h : Counted A now S u a r acc) (hactive : u = .active)
    (hless : acc.1 < limit) {b : Int} (hnext : ∀ e ∈ r, b ≤ e.wallTimeSecs)
    (hb : limit ≤ acc.1 + (b - a)) :
    FirstAt A S limit ((b - (acc.1 + (b - a) - limit) : Int) : ℝ) := by
  have hmoment : ((b - (acc.1 + (b - a) - limit) : Int) : ℝ) =
      (a : ℝ) + ((limit : ℝ) - lengthIn A S a) := by
    rw [← h.count]
    push_cast
    ring
  have hle : (a : ℝ) + ((limit : ℝ) - lengthIn A S a) ≤ b := by
    rw [← hmoment]
    exact Int.cast_le.mpr (by omega)
  rw [hmoment]
  refine FirstAt.of_mem (Int.cast_le.mpr h.today) ?_ fun t hat ht => ?_
  · rw [← h.count]
    exact Int.cast_lt.mpr hless
  · have hlt : ∀ e ∈ r, t < e.wallTimeSecs := fun e he =>
      (ht.trans_le hle).trans_le (Int.cast_le.mpr (hnext e he))
    exact (h.mem_iff hat hlt).mpr hactive

/-- **The loop.** Below the limit, it stops at the moment at which the limit is reached, or goes
through with a count that is below the limit. Induction on the transitions to come. -/
theorem Counted.limitReachedLoop (h : Counted A now S u a r acc) (limit : Int) (hless : acc.1 < limit) :
    (∃ t : Int, TimeLimitsManager.limitReachedLoop limit r acc = .inl t ∧ FirstAt A S limit t ∧
      t ≤ now) ∨
    TimeLimitsManager.limitReachedLoop limit r acc = .inr (r.foldl countTransition acc) ∧
      (r.foldl countTransition acc).1 < limit := by
  induction r generalizing u a acc with
  | nil => exact .inr ⟨rfl, hless⟩
  | cons e r ih =>
      have hstep := h.step
      have hold : e.oldState = u := h.starts e rfl
      rw [TimeLimitsManager.limitReachedLoop]
      by_cases hreached : limit ≤ (countTransition acc e).1
      · left
        refine ⟨_, if_pos hreached, ?_⟩
        by_cases hnew : e.newState = .active
        · -- a transition that makes the user active adds nothing
          rw [countTransition, if_pos hnew] at hreached
          exact absurd hreached (Int.not_le.mpr hless)
        · have hactive : e.oldState = .active :=
            UserState.eq_of_ne h.formed.changes_head (Ne.symm hnew)
          have hae : a ≤ e.wallTimeSecs := h.next e List.mem_cons_self
          have hcount : (countTransition acc e).1 = acc.1 + (e.wallTimeSecs - a) := by
            rw [countTransition, if_neg hnew, if_pos hactive, h.since (hold.symm.trans hactive),
              max_eq_left (by omega)]
          have hpast := h.formed.past e List.mem_cons_self
          rw [hcount] at hreached ⊢
          refine ⟨h.firstAt (hold.symm.trans hactive) hless (fun x hx => ?_) hreached, by omega⟩
          rcases List.mem_cons.mp hx with rfl | hx
          · exact le_rfl
          · exact h.formed.le_of_mem hx
      · rw [if_neg hreached, List.foldl_cons]
        exact ih hstep (by omega)

theorem limitReachedLoop_zero_mem {e : Transition} (hS : S ≤ e.wallTimeSecs) :
    ∃ t, limitReachedLoop 0 (e :: r) (0, S) = .inl t ∧ S ≤ t ∧ t ≤ e.wallTimeSecs := by
  rw [limitReachedLoop, countTransition]
  by_cases hnew : e.newState = .active
  · rw [if_pos hnew, if_pos le_rfl]
    exact ⟨_, rfl, by dsimp only; omega, by dsimp only; omega⟩
  · rw [if_neg hnew]
    by_cases hold : e.oldState = .active
    · rw [if_pos hold, if_pos (by dsimp only; omega)]
      exact ⟨_, rfl, by dsimp only; omega, by dsimp only; omega⟩
    · rw [if_neg hold, if_pos le_rfl]
      exact ⟨_, rfl, by dsimp only; omega, by dsimp only; omega⟩

theorem WellFormed.reachedAt_of_pos (h : WellFormed now l) (hS : S ≤ now) (hpos : 0 < limit) :
    limit ≤ calculateActiveTimeTodaySecs now S l ∧
        FirstAt (activeTimes l) S limit (calculateDailyLimitReachedAtSecs now limit S l) ∧
        calculateDailyLimitReachedAtSecs now limit S l ≤ now ∨
      calculateActiveTimeTodaySecs now S l < limit ∧
        calculateDailyLimitReachedAtSecs now limit S l = 0 := by
  obtain ⟨u, hcounted, hends⟩ := h.counted hS
  obtain ⟨b, hlast⟩ := hcounted.foldl
  have hlength := (calculateActiveTimeTodaySecs_length h hS).1
  have hbnow := hlast.past
  rw [calculateDailyLimitReachedAtSecs]
  rcases hcounted.limitReachedLoop limit hpos with ⟨t, ht, hfirst, htnow⟩ | ⟨hloop, hless⟩
  · left
    rw [ht]
    refine ⟨?_, hfirst, htnow⟩
    -- what is reached up to `t` is reached up to now
    have hle : (limit : ℝ) ≤ calculateActiveTimeTodaySecs now S l := by
      rw [hlength, ← hfirst.length]
      exact lengthIn_mono (Int.cast_le.mpr htnow)
    exact_mod_cast hle
  · rw [hloop]
    dsimp only
    rw [calculateActiveTimeTodaySecs]
    dsimp only
    by_cases hactive : endsActive l = true
    · have hstate := hends.mp hactive
      rw [if_pos hactive, hlast.since hstate, max_eq_left (by omega)]
      by_cases hreached : limit ≤ ((TimeLimitsManager.transitionsToday S l).foldl countTransition
        (0, S)).1 + (now - b)
      · rw [if_pos hreached]
        exact .inl ⟨hreached, hlast.firstAt hstate hless (by simp) hreached, by omega⟩
      · rw [if_neg hreached]
        exact .inr ⟨by omega, rfl⟩
    · rw [if_neg hactive, if_neg (by omega)]
      exact .inr ⟨hless, rfl⟩

theorem WellFormed.reachedAt_zero (h : WellFormed now l) (hS : S ≤ now) :
    S ≤ calculateDailyLimitReachedAtSecs now 0 S l ∧
      calculateDailyLimitReachedAtSecs now 0 S l ≤ now := by
  rw [calculateDailyLimitReachedAtSecs]
  cases htoday : TimeLimitsManager.transitionsToday S l with
  | nil =>
      rw [TimeLimitsManager.limitReachedLoop]
      dsimp only
      split
      · rw [if_pos (by omega)]
        omega
      · rw [if_pos le_rfl]
        omega
  | cons e r =>
      obtain ⟨t, ht, hSt, hte⟩ := limitReachedLoop_zero_mem (r := r) (le_of_transitionsToday htoday)
      have hmem : e ∈ TimeLimitsManager.transitionsToday S l := by simp [htoday]
      rw [ht]
      exact ⟨hSt, hte.trans (h.past e (mem_of_transitionsToday hmem))⟩

/-- **When the limit is reached.** A time other than 0 is returned only if the active time is at least
the limit. If it is, then the time returned is one of today, up to now; for a positive limit it is
the one up to which the active time is the limit, and less up to any time before. It is 0 only if
the epoch lies in today. -/
theorem calculateDailyLimitReachedAtSecs_spec (h : WellFormed now l) (hS : S ≤ now) (limit : ℕ) :
    (calculateDailyLimitReachedAtSecs now limit S l ≠ 0 →
      (limit : Int) ≤ calculateActiveTimeTodaySecs now S l) ∧
    ((limit : Int) ≤ calculateActiveTimeTodaySecs now S l →
      (calculateDailyLimitReachedAtSecs now limit S l ≠ 0 ∨ S ≤ 0 ∧ 0 ≤ now) ∧
      S ≤ calculateDailyLimitReachedAtSecs now limit S l ∧
      calculateDailyLimitReachedAtSecs now limit S l ≤ now ∧
      (0 < limit → FirstAt (activeTimes l) S limit (calculateDailyLimitReachedAtSecs now limit S l))) := by
  have hmoment : (limit : Int) ≤ calculateActiveTimeTodaySecs now S l →
      S ≤ calculateDailyLimitReachedAtSecs now limit S l ∧
      calculateDailyLimitReachedAtSecs now limit S l ≤ now ∧
      (0 < limit → FirstAt (activeTimes l) S limit (calculateDailyLimitReachedAtSecs now limit S l)) := by
    intro hreached
    rcases Nat.eq_zero_or_pos limit with rfl | hpos
    · obtain ⟨hle, hnow⟩ := h.reachedAt_zero hS
      exact ⟨hle, hnow, fun hpos => absurd hpos (Nat.lt_irrefl 0)⟩
    · rcases h.reachedAt_of_pos hS (Int.natCast_pos.mpr hpos) with ⟨-, hfirst, hnow⟩ | ⟨hless, -⟩
      · exact ⟨by exact_mod_cast hfirst.start, hnow, fun _ => by exact_mod_cast hfirst⟩
      · omega
  refine ⟨fun hne => ?_, fun hreached => ⟨?_, hmoment hreached⟩⟩
  · rcases Nat.eq_zero_or_pos limit with rfl | hpos
    · exact (calculateActiveTimeTodaySecs_length h hS).2.1
    · rcases h.reachedAt_of_pos hS (Int.natCast_pos.mpr hpos) with ⟨hreached, -, -⟩ | ⟨-, hzero⟩
      · exact hreached
      · exact absurd hzero hne
  · obtain ⟨hle, hnow, -⟩ := hmoment hreached
    omega

example : calculateDailyLimitReachedAtSecs 200 40 100 threeStretches = 170 := by decide

theorem calculateDailyLimitReachedAtSecs_spec_threeStretches :
    (calculateDailyLimitReachedAtSecs 200 (40 : ℕ) 100 threeStretches ≠ 0 →
      ((40 : ℕ) : Int) ≤ calculateActiveTimeTodaySecs 200 100 threeStretches) ∧
    (((40 : ℕ) : Int) ≤ calculateActiveTimeTodaySecs 200 100 threeStretches →
      (calculateDailyLimitReachedAtSecs 200 (40 : ℕ) 100 threeStretches ≠ 0 ∨
        (100 : Int) ≤ 0 ∧ (0 : Int) ≤ 200) ∧
      100 ≤ calculateDailyLimitReachedAtSecs 200 (40 : ℕ) 100 threeStretches ∧
      calculateDailyLimitReachedAtSecs 200 (40 : ℕ) 100 threeStretches ≤ 200 ∧
      (0 < 40 → FirstAt (activeTimes threeStretches) (100 : Int) (40 : ℕ)
        (calculateDailyLimitReachedAtSecs 200 (40 : ℕ) 100 threeStretches))) :=
  calculateDailyLimitReachedAtSecs_spec wellFormed_threeStretches (by decide) 40

/-- The wall clock starts at the epoch, as it does where nothing keeps the time, and the user becomes
active at once. With a limit of 0 the moment is the epoch. -/
theorem not_reachedAt_iff_atEpoch :
    ¬ ∀ (now S : Int) (l : List Transition) (limit : ℕ), WellFormed now l → S ≤ now →
      (calculateDailyLimitReachedAtSecs now limit S l ≠ 0 ↔
        (limit : Int) ≤ calculateActiveTimeTodaySecs now S l) := by
  intro h
  have hformed : WellFormed 5 [⟨.inactive, .active, 0⟩] := ⟨by decide, by decide, by decide, by decide⟩
  have hiff := h 5 (-75600) [⟨.inactive, .active, 0⟩] 0 hformed (by decide)
  revert hiff
  decide

end TimeLimitsManager
