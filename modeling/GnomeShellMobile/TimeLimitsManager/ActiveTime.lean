import GnomeShellMobile.Timeline.Basic
import GnomeShellMobile.TimeLimitsManager.LimitState

/-!
# TimeLimitsManager — the active time of today

A history says of each time, also between two seconds, what the state of the user was then. The
active time of today is the length of the part of today at which it was `ACTIVE`, and this is what
`_calculateActiveTimeTodaySecs` counts.

* **`userStateAt`**: the state of the user at a time.
* **`Counted`**: the invariant of the counting loop, with the step lemma `Counted.step`.
* **`calculateActiveTimeTodaySecs_length`**: the count is the length.
-/

namespace TimeLimitsManager

open Timeline

/-! ## The state of the user -/

/-- The state at time `t` if it was `u` before the transitions of `l`. Of several transitions at one
time the last one counts. -/
noncomputable def stateFrom (u : UserState) (l : List Transition) (t : ℝ) : UserState :=
  l.foldl (fun u e => if (e.wallTimeSecs : ℝ) ≤ t then e.newState else u) u

def stateBefore : List Transition → UserState
  | [] => .inactive
  | e :: _ => e.oldState

noncomputable def userStateAt (l : List Transition) (t : ℝ) : UserState := stateFrom (stateBefore l) l t

def activeTimes (l : List Transition) : Set ℝ := {t | userStateAt l t = .active}

def stateAfter (u : UserState) (l : List Transition) : UserState :=
  (l.getLast?.map Transition.newState).getD u

section

variable {now S a : Int} {u : UserState} {e : Transition} {l r : List Transition} {t : ℝ}

theorem stateFrom_cons_of_le (h : (e.wallTimeSecs : ℝ) ≤ t) :
    stateFrom u (e :: r) t = stateFrom e.newState r t := by
  rw [stateFrom, List.foldl_cons, if_pos h, stateFrom]

/-- Before the first transition. Induction on the list. -/
theorem stateFrom_of_lt (h : ∀ e ∈ l, t < e.wallTimeSecs) : stateFrom u l t = u := by
  induction l with
  | nil => rfl
  | cons e r ih =>
      rw [stateFrom, List.foldl_cons, if_neg (not_le.mpr (h e List.mem_cons_self)), ← stateFrom]
      exact ih fun x hx => h x (List.mem_cons_of_mem e hx)

@[simp] theorem stateAfter_nil : stateAfter u [] = u := rfl

theorem stateAfter_cons : stateAfter u (e :: r) = stateAfter e.newState r := by
  cases r with
  | nil => rfl
  | cons x r => rw [stateAfter, stateAfter, List.getLast?_cons_cons, List.getLast?_cons, Option.map_some,
      Option.getD_some, Option.getD_some]

theorem endsActive_iff : endsActive l = true ↔ stateAfter (stateBefore l) l = .active := by
  cases l with
  | nil => simp [endsActive, stateBefore]
  | cons e r =>
      rw [endsActive, stateAfter, List.getLast?_cons, Option.any_some, Option.map_some,
        Option.getD_some, decide_eq_true_eq]

def StartsFrom (u : UserState) (l : List Transition) : Prop := ∀ e ∈ l.head?, e.oldState = u

theorem startsFrom_stateBefore (l : List Transition) : StartsFrom (stateBefore l) l := by
  intro e he
  cases l with
  | nil => cases he
  | cons x r =>
      cases he
      rfl

theorem WellFormed.startsFrom_tail (h : WellFormed now (e :: r)) : StartsFrom e.newState r := by
  intro x hx
  cases r with
  | nil => cases hx
  | cons y r =>
      cases hx
      exact h.old_next

/-- The transitions of before today lead to a state from which those of today start, and what they
say of today is said by these. Induction on the list. -/
theorem WellFormed.startsFrom_today (h : WellFormed now l) (hu : StartsFrom u l) (S : Int) :
    ∃ v, StartsFrom v (TimeLimitsManager.transitionsToday S l) ∧
      (∀ t : ℝ, S ≤ t →
        stateFrom u l t = stateFrom v (TimeLimitsManager.transitionsToday S l) t) ∧
      stateAfter u l = stateAfter v (TimeLimitsManager.transitionsToday S l) := by
  induction l generalizing u with
  | nil => exact ⟨u, hu, fun _ _ => rfl, rfl⟩
  | cons e r ih =>
      rcases lt_or_ge e.wallTimeSecs S with he | he
      · rw [transitionsToday_of_lt he]
        obtain ⟨v, hstarts, hstate, hafter⟩ := ih h.tail h.startsFrom_tail
        refine ⟨v, hstarts, fun t ht => ?_, stateAfter_cons.trans hafter⟩
        have hle : (e.wallTimeSecs : ℝ) ≤ t := (Int.cast_lt.mpr he).le.trans ht
        rw [stateFrom_cons_of_le hle, hstate t ht]
      · rw [transitionsToday_of_le he]
        exact ⟨u, hu, fun _ _ => rfl, rfl⟩

/-! ## The loop -/

/-- The counting loop has come to the time `a`, where the state is `u`, with the transitions `r` still
to come: it has counted the active time up to `a`, and while the user is active it knows since
when. -/
structure Counted (A : Set ℝ) (now S : Int) (u : UserState) (a : Int) (r : List Transition)
    (acc : Int × Int) : Prop where
  formed : WellFormed now r
  starts : StartsFrom u r
  follows : ∀ t : ℝ, a ≤ t → (t ∈ A ↔ stateFrom u r t = .active)
  today : S ≤ a
  past : a ≤ now
  next : ∀ e ∈ r, a ≤ e.wallTimeSecs
  count : (acc.1 : ℝ) = lengthIn A S a
  since : u = .active → acc.2 = a

variable {A : Set ℝ} {acc : Int × Int}

theorem Counted.mem_iff (h : Counted A now S u a r acc) {t : ℝ} (hat : a ≤ t)
    (hnext : ∀ e ∈ r, t < e.wallTimeSecs) : t ∈ A ↔ u = .active := by
  rw [h.follows t hat, stateFrom_of_lt hnext]

theorem Counted.lengthIn_eq (h : Counted A now S u a r acc) {b : Int} (hab : a ≤ b)
    (hnext : ∀ e ∈ r, b ≤ e.wallTimeSecs) :
    lengthIn A S b = acc.1 + if u = .active then (b : ℝ) - a else 0 := by
  have hmem : ∀ t : ℝ, a ≤ t → t < b → (t ∈ A ↔ u = .active) := fun t hat htb =>
    h.mem_iff hat fun e he => htb.trans_le (Int.cast_le.mpr (hnext e he))
  rw [lengthIn_add (Int.cast_le.mpr h.today) (Int.cast_le.mpr hab), h.count]
  congr 1
  split
  · next hactive =>
      exact lengthIn_of_mem (Int.cast_le.mpr hab) fun t hat htb => (hmem t hat htb).mpr hactive
  · next hactive =>
      exact lengthIn_of_notMem fun t hat htb hA => hactive ((hmem t hat htb).mp hA)

/-- **The step lemma.** A turn of the loop goes on to the time of its transition. -/
theorem Counted.step (h : Counted A now S u a (e :: r) acc) :
    Counted A now S e.newState e.wallTimeSecs r (countTransition acc e) := by
  have hae : a ≤ e.wallTimeSecs := h.next e List.mem_cons_self
  have hold : e.oldState = u := h.starts e rfl
  have hlength : lengthIn A S e.wallTimeSecs =
      acc.1 + if u = .active then (e.wallTimeSecs : ℝ) - a else 0 := by
    refine h.lengthIn_eq hae fun x hx => ?_
    rcases List.mem_cons.mp hx with rfl | hx
    · exact le_rfl
    · exact h.formed.le_of_mem hx
  refine ⟨h.formed.tail, h.formed.startsFrom_tail, fun t ht => ?_, h.today.trans hae,
    h.formed.past e List.mem_cons_self, fun x hx => h.formed.le_of_mem hx, ?_, fun hnew => ?_⟩
  · have hat : (a : ℝ) ≤ t := (Int.cast_le.mpr hae).trans ht
    rw [h.follows t hat, stateFrom_cons_of_le ht]
  · rw [hlength, countTransition, ← hold]
    by_cases hnew : e.newState = .active
    · -- the user was inactive until then
      have hinactive : e.oldState ≠ .active := fun hactive =>
        h.formed.changes_head (hactive.trans hnew.symm)
      simp [hnew, hinactive]
    · -- the user was active since `a`
      have hactive : e.oldState = .active := UserState.eq_of_ne h.formed.changes_head (Ne.symm hnew)
      rw [if_neg hnew, if_pos hactive, if_pos hactive, h.since (hold.symm.trans hactive),
        max_eq_left (by omega)]
      push_cast
      ring
  · rw [countTransition, if_pos hnew]

/-- The whole loop. Induction on the transitions to come. -/
theorem Counted.foldl (h : Counted A now S u a r acc) :
    ∃ b, Counted A now S (stateAfter u r) b [] (r.foldl countTransition acc) := by
  induction r generalizing u a acc with
  | nil => exact ⟨a, h⟩
  | cons e r ih =>
      rw [stateAfter_cons]
      exact ih h.step

theorem WellFormed.counted (h : WellFormed now l) (hS : S ≤ now) :
    ∃ u, Counted (activeTimes l) now S u S (TimeLimitsManager.transitionsToday S l) (0, S) ∧
      (endsActive l = true ↔
        stateAfter u (TimeLimitsManager.transitionsToday S l) = .active) := by
  obtain ⟨u, hstarts, hstate, hafter⟩ := h.startsFrom_today (startsFrom_stateBefore l) S
  have hformed : WellFormed now (TimeLimitsManager.transitionsToday S l) := h.transitionsToday S
  refine ⟨u, ⟨hformed, hstarts, fun t ht => ?_, le_rfl, hS, fun e he => ?_, by simp, fun _ => rfl⟩, ?_⟩
  · rw [← hstate t ht]
    exact Iff.rfl
  · -- the first transition of today is not before its start, and none is before the first
    cases htoday : TimeLimitsManager.transitionsToday S l with
    | nil =>
        rw [htoday] at he
        cases he
    | cons x r =>
        have hx : S ≤ x.wallTimeSecs := le_of_transitionsToday htoday
        rw [htoday] at he hformed
        rcases List.mem_cons.mp he with rfl | he
        · exact hx
        · exact hx.trans (hformed.le_of_mem he)
  · rw [endsActive_iff, hafter]

/-! ## The count -/

/-- **Active time.** For every history and every day that has begun, the count is the length of the
part of today, up to now, at which the user was active. So it is at most the time that has passed
today. -/
theorem calculateActiveTimeTodaySecs_length (h : WellFormed now l) (hS : S ≤ now) :
    (calculateActiveTimeTodaySecs now S l : ℝ) = lengthIn (activeTimes l) S now ∧
      0 ≤ calculateActiveTimeTodaySecs now S l ∧ calculateActiveTimeTodaySecs now S l ≤ now - S := by
  have hlength : (calculateActiveTimeTodaySecs now S l : ℝ) = lengthIn (activeTimes l) S now := by
    obtain ⟨u, hcounted, hends⟩ := h.counted hS
    obtain ⟨b, hlast⟩ := hcounted.foldl
    rw [hlast.lengthIn_eq hlast.past (by simp), calculateActiveTimeTodaySecs]
    dsimp only
    by_cases hactive : endsActive l = true
    · have hb := hlast.past
      rw [if_pos hactive, if_pos (hends.mp hactive), hlast.since (hends.mp hactive),
        max_eq_left (by omega)]
      push_cast
      ring
    · rw [if_neg hactive, if_neg (mt hends.mpr hactive), add_zero]
  refine ⟨hlength, ?_, ?_⟩
  · have hnonneg : (0 : ℝ) ≤ calculateActiveTimeTodaySecs now S l := hlength ▸ lengthIn_nonneg
    exact_mod_cast hnonneg
  · have hle : (calculateActiveTimeTodaySecs now S l : ℝ) ≤ now - S :=
      hlength ▸ lengthIn_le (Int.cast_le.mpr hS)
    exact_mod_cast hle

end

def threeStretches : List Transition :=
  [⟨.inactive, .active, 80⟩, ⟨.active, .inactive, 130⟩, ⟨.inactive, .active, 150⟩,
    ⟨.active, .inactive, 150⟩, ⟨.inactive, .active, 160⟩]

theorem wellFormed_threeStretches : WellFormed 200 threeStretches :=
  ⟨by decide, by decide, by decide, by decide⟩

example : calculateActiveTimeTodaySecs 200 100 threeStretches = 70 := by decide

theorem calculateActiveTimeTodaySecs_length_threeStretches :
    (calculateActiveTimeTodaySecs 200 100 threeStretches : ℝ) =
        lengthIn (activeTimes threeStretches) (100 : Int) (200 : Int) ∧
      0 ≤ calculateActiveTimeTodaySecs 200 100 threeStretches ∧
      calculateActiveTimeTodaySecs 200 100 threeStretches ≤ 200 - 100 :=
  calculateActiveTimeTodaySecs_length wellFormed_threeStretches (by decide)

end TimeLimitsManager
