import Mathlib.Tactic.Linarith
import Mathlib.Tactic.NormNum
import GnomeShellMobile.BreakManager.Manager

/-!
# BreakManager — the state against the facts

What a completed `_updateState` should leave: a state that says whether the user is active and
whether a break is due, and a current break type only while there is a break. It does so if and
only if it was called in a `Settled` state, and a run of the manager keeps to the facts if and
only if all of its calls of `_updateState` were.

* **`getNextBreakDue_spec`**: what the loop over the break types computes.
* **`facts_updateIdle_iff`**, **`facts_announceBreak_iff`**: the two branches.
* **`Sound`**: what the fields of a reachable state have to do with each other.
-/

namespace BreakManager

variable {e : Event}

namespace State

variable {s : State} {now : ℚ}

def Due (s : State) (currentTime : ℚ) : Prop :=
  ∃ b ∈ s.breaks, s.wouldBeDueAt b ≤ currentTime
deriving Decidable

def CurrentEnabled (s : State) : Prop := ∃ t ∈ s.currentBreakType, s.Enabled t
deriving Decidable

/-- The facts that the state is to agree with after `_updateState(currentTime)`. -/
structure Facts (s : State) (currentTime : ℚ) : Prop where
  breakDue : s.state = .breakDue ↔ s.idleState = .active ∧ s.Due currentTime
  active : s.state = .active ↔ s.idleState = .active ∧ ¬ s.Due currentTime
  inBreak : s.state = .inBreak → s.idleState = .idle
  idle : s.state = .idle → s.idleState = .idle
  noBreak : ¬ (s.Due currentTime ∨ s.state = .inBreak) → s.currentBreakType = none
  someBreak : s.Due currentTime ∨ s.state = .inBreak → s.CurrentEnabled

instance (s : State) (currentTime : ℚ) : Decidable (s.Facts currentTime) :=
  decidable_of_iff
    ((s.state = .breakDue ↔ s.idleState = .active ∧ s.Due currentTime) ∧
      (s.state = .active ↔ s.idleState = .active ∧ ¬ s.Due currentTime) ∧
      (s.state = .inBreak → s.idleState = .idle) ∧ (s.state = .idle → s.idleState = .idle) ∧
      (¬ (s.Due currentTime ∨ s.state = .inBreak) → s.currentBreakType = none) ∧
      (s.Due currentTime ∨ s.state = .inBreak → s.CurrentEnabled))
    ⟨fun ⟨h1, h2, h3, h4, h5, h6⟩ => ⟨h1, h2, h3, h4, h5, h6⟩,
      fun h => ⟨h.breakDue, h.active, h.inBreak, h.idle, h.noBreak, h.someBreak⟩⟩

/-! ## The next break

The loop keeps, of the break types it has seen, whether one of them is due, and names one of
them. -/

/-- What the variables of the loop say after the break types `seen`. -/
structure Seen (s : State) (now : ℚ) (seen : List Break) (acc : NextDue) : Prop where
  nil : seen = [] → acc = ⟨0, none, 0⟩
  named : seen ≠ [] → ∃ t ∈ acc.maxDurationType, t ∈ seen.map Break.type
  pos : seen ≠ [] → 0 < acc.nextDueTime
  due : seen ≠ [] → (acc.nextDueTime ≤ now ↔ ∃ b ∈ seen, s.wouldBeDueAt b ≤ now)

theorem Seen.start (s : State) (now : ℚ) : s.Seen now [] ⟨0, none, 0⟩ :=
  ⟨fun _ => rfl, fun h => absurd rfl h, fun h => absurd rfl h, fun h => absurd rfl h⟩

theorem Seen.body {seen : List Break} {acc : NextDue}
    (h : s.Seen now seen acc) (b : Break) (hb : 0 < s.wouldBeDueAt b) :
    s.Seen now (seen ++ [b]) (s.nextDueBody now acc b) := by
  have hne : seen ++ [b] ≠ [] := by simp
  have hsplit : (∃ c ∈ seen ++ [b], s.wouldBeDueAt c ≤ now) ↔
      (∃ c ∈ seen, s.wouldBeDueAt c ≤ now) ∨ s.wouldBeDueAt b ≤ now := by
    simp [or_and_right, exists_or]
  refine ⟨fun h' => absurd h' hne, fun _ => ?_, fun _ => ?_, fun _ => ?_⟩
  · -- the type named is that of `b`, or the one named before
    unfold nextDueBody
    by_cases hs : seen = []
    · rw [h.nil hs]
      split <;> simp
    · obtain ⟨t, ht, hmem⟩ := h.named hs
      have hmem' : t ∈ (seen ++ [b]).map Break.type := by
        rw [List.map_append]
        exact List.mem_append_left _ hmem
      split
      · split
        · exact ⟨b.type, rfl, by simp⟩
        · exact ⟨t, ht, hmem'⟩
      · split
        · exact ⟨b.type, rfl, by simp⟩
        · exact ⟨t, ht, hmem'⟩
  · -- the next due time is that of `b`, or the one before, which is set by then
    unfold nextDueBody
    split
    · split <;> exact hb
    · split
      · exact hb
      · next hkeep =>
        have hs : seen ≠ [] := fun hs => hkeep (.inl (by rw [h.nil hs]))
        exact h.pos hs
  · rw [hsplit]
    unfold nextDueBody
    by_cases hdue : s.wouldBeDueAt b ≤ now
    · rw [if_pos hdue]
      split <;> simp [hdue]
    · rw [if_neg hdue]
      by_cases hs : seen = []
      · rw [h.nil hs, hs]
        simp
      · have hpos := h.pos hs
        split
        · next hset =>
          -- `b` comes first of those seen, none of which is due
          have hlt : s.wouldBeDueAt b < acc.nextDueTime := hset.resolve_left hpos.ne'
          have hnot : ¬ acc.nextDueTime ≤ now := by
            intro hle
            exact hdue (hlt.le.trans hle)
          simp only [hdue, or_false, false_iff]
          exact fun hex => hnot ((h.due hs).mpr hex)
        · simp only [hdue, or_false]
          exact h.due hs

theorem Seen.foldl {seen : List Break} {acc : NextDue}
    (h : s.Seen now seen acc) (l : List Break) (hl : ∀ b ∈ l, 0 < s.wouldBeDueAt b) :
    s.Seen now (seen ++ l) (l.foldl (s.nextDueBody now) acc) := by
  induction l generalizing seen acc with
  | nil => simpa using h
  | cons b l ih =>
    have hb := h.body b (hl b List.mem_cons_self)
    have hrest := ih hb fun c hc => hl c (List.mem_cons_of_mem b hc)
    simpa using hrest

def Positive (s : State) : Prop := ∀ b ∈ s.breaks, 0 < b.lastEnd

theorem Positive.wouldBeDueAt (h : s.Positive) {b : Break} (hb : b ∈ s.breaks) :
    0 < s.wouldBeDueAt b := by
  have hint : (0 : ℚ) ≤ (s.settings.breakSettings b.type).intervalSeconds := Nat.cast_nonneg _
  have hend := h b hb
  unfold State.wouldBeDueAt
  linarith

theorem getNextBreakDue_nil (now : ℚ) (h : s.breaks = []) : s.getNextBreakDue now = (none, 0) := by
  simp [getNextBreakDue, h]

theorem getNextBreakDue_spec (now : ℚ) (hpos : s.Positive) (hne : s.breaks ≠ []) :
    ∃ t d, s.getNextBreakDue now = (some t, d) ∧ s.Enabled t ∧ d ≠ 0 ∧
      (d ≤ now ↔ s.Due now) := by
  have h := (Seen.start s now).foldl s.breaks fun b hb => hpos.wouldBeDueAt hb
  rw [List.nil_append] at h
  obtain ⟨t, ht, hmem⟩ := h.named hne
  exact ⟨t, _, Prod.ext ht rfl, hmem, (h.pos hne).ne', h.due hne⟩

theorem not_due_of_nil (h : s.breaks = []) : ¬ s.Due now := by
  simp [Due, h]

theorem due_congr {s s' : State} (hb : s'.breaks = s.breaks) (hs : s'.settings = s.settings)
    (now : ℚ) : s'.Due now ↔ s.Due now := by
  simp only [Due, wouldBeDueAt, hb, hs]

theorem enabled_congr {s s' : State} (hb : s'.breaks = s.breaks) (t : BreakType) :
    s'.Enabled t ↔ s.Enabled t := by
  simp only [Enabled, hb]

/-! ## The idle branch -/

def BreakOver (s : State) (now : ℚ) : Prop :=
  ∃ t ∈ (s.getNextBreakDue now).1, (s.getNextBreakDue now).2 + s.duration t ≤ now
deriving Decidable

def breakStateWhenIdle (s : State) (now : ℚ) : BreakState :=
  if s.BreakOver now then .idle else .inBreak

/-- With the user idle, the facts are kept if

* a break is due and the state changes, or its type is enabled;
* no break is due, and the state is `IDLE` without a type, or becomes so with no type enabled. -/
structure SettledIdle (s : State) (now : ℚ) : Prop where
  due : s.Due now → s.state = s.breakStateWhenIdle now → s.CurrentEnabled
  stays : ¬ s.Due now → s.state = .idle → s.currentBreakType = none
  changes : ¬ s.Due now → s.state ≠ .idle → s.breaks = []

instance (s : State) (now : ℚ) : Decidable (s.SettledIdle now) :=
  decidable_of_iff
    ((s.Due now → s.state = s.breakStateWhenIdle now → s.CurrentEnabled) ∧
      (¬ s.Due now → s.state = .idle → s.currentBreakType = none) ∧
      (¬ s.Due now → s.state ≠ .idle → s.breaks = []))
    ⟨fun ⟨h1, h2, h3⟩ => ⟨h1, h2, h3⟩, fun h => ⟨h.due, h.stays, h.changes⟩⟩

section SetIdle

variable (s : State) (new : BreakState) (t : Option BreakType) (start : ℚ)

@[simp] theorem setIdle_state : (s.setIdleBranchState new t start).state = new := by
  unfold setIdleBranchState
  split
  · assumption
  · rfl

@[simp] theorem setIdle_breaks : (s.setIdleBranchState new t start).breaks = s.breaks := by
  unfold setIdleBranchState
  split <;> rfl

@[simp] theorem setIdle_settings : (s.setIdleBranchState new t start).settings = s.settings := by
  unfold setIdleBranchState
  split <;> rfl

@[simp] theorem setIdle_idleState : (s.setIdleBranchState new t start).idleState = s.idleState := by
  unfold setIdleBranchState
  split <;> rfl

@[simp] theorem setIdle_current : (s.setIdleBranchState new t start).currentBreakType =
    if s.state = new then s.currentBreakType else t := by
  unfold setIdleBranchState
  split <;> rfl

end SetIdle

@[simp] theorem scheduleUpdateState_breaks (s : State) (d : ℚ) :
    (s.scheduleUpdateState d).breaks = s.breaks := rfl

@[simp] theorem scheduleUpdateState_settings (s : State) (d : ℚ) :
    (s.scheduleUpdateState d).settings = s.settings := rfl

@[simp] theorem scheduleUpdateState_idleState (s : State) (d : ℚ) :
    (s.scheduleUpdateState d).idleState = s.idleState := rfl

@[simp] theorem scheduleUpdateState_state (s : State) (d : ℚ) :
    (s.scheduleUpdateState d).state = s.state := rfl

@[simp] theorem scheduleUpdateState_current (s : State) (d : ℚ) :
    (s.scheduleUpdateState d).currentBreakType = s.currentBreakType := rfl

/-- What `_updateState` says about the state: `s'` has the breaks, the settings and the user of
`s`, with a new state and current break type. -/
structure Updates (s s' : State) (new : BreakState) (current : Option BreakType) : Prop where
  breaks : s'.breaks = s.breaks
  settings : s'.settings = s.settings
  idleState : s'.idleState = s.idleState
  state : s'.state = new
  current : s'.currentBreakType = current

theorem Updates.due {s s' : State} {new : BreakState} {current : Option BreakType}
    (h : s.Updates s' new current) (now : ℚ) : s'.Due now ↔ s.Due now :=
  due_congr h.breaks h.settings now

theorem Updates.currentEnabled {s s' : State} {new : BreakState} {current : Option BreakType}
    (h : s.Updates s' new current) : s'.CurrentEnabled ↔ ∃ t ∈ current, s.Enabled t := by
  simp only [CurrentEnabled, h.current, enabled_congr h.breaks]

theorem updates_setIdle (s : State) (new : BreakState) (t : Option BreakType) (start : ℚ) :
    s.Updates (s.setIdleBranchState new t start) new
      (if s.state = new then s.currentBreakType else t) :=
  ⟨by simp, by simp, by simp, by simp, by simp⟩

theorem updates_schedule (s : State) (d : ℚ) (new : BreakState) (t : Option BreakType)
    (start : ℚ) : s.Updates ((s.scheduleUpdateState d).setIdleBranchState new t start) new
      (if s.state = new then s.currentBreakType else t) :=
  ⟨by simp, by simp, by simp, by simp, setIdle_current (s.scheduleUpdateState d) new t start⟩

theorem updateIdle_of_nil (h : s.breaks = []) :
    s.Updates (s.updateIdle now) .idle (if s.state = .idle then s.currentBreakType else none) := by
  have heq : s.updateIdle now = s.setIdleBranchState .idle none 0 := by
    unfold updateIdle
    rw [getNextBreakDue_nil now h]
    simp
  rw [heq]
  exact updates_setIdle s _ _ _

theorem updateIdle_of_not_due (hpos : s.Positive) (hne : s.breaks ≠ [])
    (hdue : ¬ s.Due now) : ∃ t, s.Enabled t ∧ s.Updates (s.updateIdle now) .idle
      (if s.state = .idle then s.currentBreakType else some t) := by
  obtain ⟨t, d, hnext, ht, hd, hiff⟩ := getNextBreakDue_spec now hpos hne
  refine ⟨t, ht, ?_⟩
  unfold updateIdle
  simp only [hnext, if_neg (fun hle => hdue (hiff.mp hle)), if_pos hd]
  exact updates_schedule s _ _ _ _

theorem updateIdle_of_due (hpos : s.Positive) (hdue : s.Due now) :
    ∃ t, s.Enabled t ∧ s.Updates (s.updateIdle now) (s.breakStateWhenIdle now)
      (if s.state = s.breakStateWhenIdle now then s.currentBreakType else some t) := by
  have hne : s.breaks ≠ [] := fun h => not_due_of_nil h hdue
  obtain ⟨t, d, hnext, ht, -, hiff⟩ := getNextBreakDue_spec now hpos hne
  refine ⟨t, ht, ?_⟩
  have hover : s.BreakOver now ↔ d + s.duration t ≤ now := by simp [BreakOver, hnext]
  unfold updateIdle
  simp only [hnext, if_pos (hiff.mpr hdue), breakStateWhenIdle, hover]
  split
  · -- the end of the break is announced first
    split
    · next hin =>
      have h := updates_setIdle (s.notify .breakFinished) .idle (some t) 0
      exact ⟨h.breaks, h.settings, h.idleState, h.state, h.current⟩
    · exact updates_setIdle s _ _ _
  · exact updates_schedule s _ _ _ _

theorem facts_updateIdle_iff (hpos : s.Positive)
    (hidle : s.idleState = .idle) : (s.updateIdle now).Facts now ↔ s.SettledIdle now := by
  by_cases hdue : s.Due now
  · obtain ⟨t, ht, hup⟩ := updateIdle_of_due hpos hdue
    have hstate : s.breakStateWhenIdle now = .idle ∨ s.breakStateWhenIdle now = .inBreak := by
      unfold breakStateWhenIdle
      split <;> simp
    have hidle' : (s.updateIdle now).idleState = .idle := hup.idleState.trans hidle
    constructor
    · intro hf
      refine ⟨fun _ hst => ?_, fun h => absurd hdue h, fun h => absurd hdue h⟩
      have hcur := hup.currentEnabled.mp (hf.someBreak (.inl ((hup.due now).mpr hdue)))
      rwa [if_pos hst] at hcur
    · intro hs
      have hcur : (s.updateIdle now).CurrentEnabled := by
        rw [hup.currentEnabled]
        split
        · next hst => exact hs.due hdue hst
        · exact ⟨t, rfl, ht⟩
      refine ⟨?_, ?_, fun _ => hidle', fun _ => hidle', fun h => ?_, fun _ => hcur⟩
      · rw [hup.state, hidle']
        rcases hstate with h | h <;> simp [h]
      · rw [hup.state, hidle']
        rcases hstate with h | h <;> simp [h]
      · exact absurd (.inl ((hup.due now).mpr hdue)) h
  · -- no break is due: the state becomes `IDLE`, and the type is that of the next break
    have key : ∀ {next : Option BreakType},
        s.Updates (s.updateIdle now) .idle
          (if s.state = .idle then s.currentBreakType else next) →
        ((s.updateIdle now).Facts now ↔
          (if s.state = .idle then s.currentBreakType else next) = none) := by
      intro next hup
      have hdue' : ¬ (s.updateIdle now).Due now := fun h => hdue ((hup.due now).mp h)
      have hidle' : (s.updateIdle now).idleState = .idle := hup.idleState.trans hidle
      constructor
      · intro hf
        rw [← hup.current]
        exact hf.noBreak (by simp [hdue', hup.state])
      · intro hnone
        refine ⟨?_, ?_, fun _ => hidle', fun _ => hidle', fun _ => hup.current.trans hnone, ?_⟩
        · simp [hup.state, hidle']
        · simp [hup.state, hidle']
        · simp [hup.state, hdue']
    by_cases hne : s.breaks = []
    · rw [key (updateIdle_of_nil hne)]
      constructor
      · intro h
        exact ⟨fun h' => absurd h' hdue, fun _ hst => by rwa [if_pos hst] at h, fun _ _ => hne⟩
      · intro hs
        split
        · next hst => exact hs.stays hdue hst
        · rfl
    · obtain ⟨t, -, hup⟩ := updateIdle_of_not_due hpos hne hdue
      rw [key hup]
      constructor
      · intro h
        refine ⟨fun h' => absurd h' hdue, fun _ hst => by rwa [if_pos hst] at h, ?_⟩
        intro _ hst
        rw [if_neg hst] at h
        cases h
      · intro hs
        split
        · next hst => exact hs.stays hdue hst
        · next hst => exact absurd (hs.changes hdue hst) hne

/-! ## The active branch -/

/-- With the user active and the idle time credited, the facts are kept if no break is due, or
if the state is one that leads to `BREAK_DUE`: `ACTIVE`, or `BREAK_DUE` with a type that is still
enabled. From `IDLE` and `IN_BREAK` the state is left as it is. -/
def SettledActive (s : State) (now : ℚ) : Prop :=
  s.Due now → s.state = .active ∨ s.state = .breakDue ∧ s.CurrentEnabled
deriving Decidable

theorem updates_setActive (s : State) : s.Updates s.setActiveState .active
    (if s.state = .active then s.currentBreakType else none) := by
  unfold setActiveState
  split
  · next hst => exact ⟨rfl, rfl, rfl, hst, rfl⟩
  · exact ⟨rfl, rfl, rfl, rfl, rfl⟩

theorem announceBreak_of_due (hpos : s.Positive) (hdue : s.Due now) (hst : s.state = .active) :
    ∃ t, s.Enabled t ∧ s.Updates (s.announceBreak now) .breakDue (some t) := by
  have hne : s.breaks ≠ [] := fun h => not_due_of_nil h hdue
  obtain ⟨t, d, hnext, ht, -, hiff⟩ := getNextBreakDue_spec now hpos hne
  refine ⟨t, ht, ?_⟩
  unfold announceBreak
  simp only [hnext, ne_eq, reduceCtorEq, not_false_eq_true, hiff.mpr hdue, and_self, if_true, hst]
  exact ⟨rfl, rfl, rfl, rfl, rfl⟩

theorem announceBreak_of_due_of_ne (hpos : s.Positive) (hdue : s.Due now)
    (hst : s.state ≠ .active) : s.announceBreak now = s := by
  have hne : s.breaks ≠ [] := fun h => not_due_of_nil h hdue
  obtain ⟨t, d, hnext, -, -, hiff⟩ := getNextBreakDue_spec now hpos hne
  unfold announceBreak
  simp [hnext, hiff.mpr hdue, hst]

theorem announceBreak_of_not_due (hpos : s.Positive)
    (hdue : ¬ s.Due now) : s.Updates (s.announceBreak now) .active
      (if s.state = .active then s.currentBreakType else none) := by
  have hcond : ¬ ((s.getNextBreakDue now).1 ≠ none ∧ (s.getNextBreakDue now).2 ≤ now) := by
    by_cases hne : s.breaks = []
    · simp [getNextBreakDue_nil now hne]
    · obtain ⟨t, d, hnext, -, -, hiff⟩ := getNextBreakDue_spec now hpos hne
      rw [hnext]
      exact fun h => hdue (hiff.mp h.2)
  unfold announceBreak
  simp only [if_neg hcond]
  split
  · have h := updates_setActive (s.scheduleUpdateState ((s.getNextBreakDue now).2 - now))
    exact ⟨h.breaks, h.settings, h.idleState, h.state, h.current⟩
  · exact updates_setActive s

theorem facts_announceBreak_iff (hpos : s.Positive)
    (hactive : s.idleState = .active) (hnone : s.state = .active → s.currentBreakType = none) :
    (s.announceBreak now).Facts now ↔ s.SettledActive now := by
  by_cases hdue : s.Due now
  · by_cases hst : s.state = .active
    · -- from `ACTIVE` the break is announced
      obtain ⟨t, ht, hup⟩ := announceBreak_of_due hpos hdue hst
      have hdue' := (hup.due now).mpr hdue
      have hcur : (s.announceBreak now).CurrentEnabled := hup.currentEnabled.mpr ⟨t, rfl, ht⟩
      refine iff_of_true ⟨?_, ?_, ?_, ?_, fun h => absurd (.inl hdue') h, fun _ => hcur⟩
        fun _ => .inl hst
      · simp [hup.state, hup.idleState, hactive, hdue']
      · simp [hup.state, hdue']
      · simp [hup.state]
      · simp [hup.state]
    · rw [announceBreak_of_due_of_ne hpos hdue hst]
      constructor
      · intro hf _
        exact .inr ⟨hf.breakDue.mpr ⟨hactive, hdue⟩, hf.someBreak (.inl hdue)⟩
      · intro hs
        obtain ⟨hbd, hcur⟩ := (hs hdue).resolve_left hst
        refine ⟨?_, ?_, ?_, ?_, fun h => absurd (.inl hdue) h, fun _ => hcur⟩
        · simp [hbd, hactive, hdue]
        · simp [hbd, hdue]
        · simp [hbd]
        · simp [hbd]
  · have hup := announceBreak_of_not_due hpos hdue
    have hdue' : ¬ (s.announceBreak now).Due now := fun h => hdue ((hup.due now).mp h)
    have hcur : (s.announceBreak now).currentBreakType = none := by
      rw [hup.current]
      split
      · next hst => exact hnone hst
      · rfl
    refine iff_of_true ⟨?_, ?_, ?_, ?_, fun _ => hcur, ?_⟩ fun h => absurd h hdue
    · simp [hup.state, hdue']
    · simp [hup.state, hup.idleState, hactive, hdue']
    · simp [hup.state]
    · simp [hup.state]
    · simp [hup.state, hdue']

/-! ## `_updateState` -/

/-- A state in which `_updateState(now)` leads to one that agrees with the facts. -/
def Settled (s : State) (now : ℚ) : Prop :=
  match s.idleState with
  | .idle => s.SettledIdle now
  | .active => (s.creditIdleTime now).SettledActive now

instance (s : State) (now : ℚ) : Decidable (s.Settled now) :=
  match h : s.idleState with
  | .idle => decidable_of_iff (s.SettledIdle now) (by simp [Settled, h])
  | .active => decidable_of_iff ((s.creditIdleTime now).SettledActive now) (by simp [Settled, h])

structure Sound (s : State) : Prop where
  positive : s.Positive
  noType : s.state = .active → s.currentBreakType = none
  stopped : s.state = .disabled → s.breaks = [] ∧ s.idleWatch = false ∧ s.activeWatch = false ∧
    s.timer = none

theorem Positive.map {s s' : State} (h : s.Positive) {f : Break → Break}
    (heq : s'.breaks = s.breaks.map f) (hf : ∀ b, 0 < b.lastEnd → 0 < (f b).lastEnd) :
    s'.Positive := by
  intro b hb
  rw [heq] at hb
  obtain ⟨c, hc, rfl⟩ := List.mem_map.mp hb
  exact hf c (h c hc)

theorem Positive.creditIdleTime (h : s.Positive) (hnow : 0 < now) :
    (s.creditIdleTime now).Positive := by
  unfold State.creditIdleTime
  split
  · refine h.map rfl fun b hb => ?_
    split
    · exact hnow
    · exact hb
  · exact h

@[simp] theorem creditIdleTime_state (s : State) (now : ℚ) :
    (s.creditIdleTime now).state = s.state := by
  unfold creditIdleTime
  split <;> rfl

@[simp] theorem creditIdleTime_idleState (s : State) (now : ℚ) :
    (s.creditIdleTime now).idleState = s.idleState := by
  unfold creditIdleTime
  split <;> rfl

@[simp] theorem creditIdleTime_current (s : State) (now : ℚ) :
    (s.creditIdleTime now).currentBreakType = s.currentBreakType := by
  unfold creditIdleTime
  split <;> rfl

/-- **The update lemma.** -/
theorem facts_updateState_iff (hs : s.Positive)
    (hnone : s.state = .active → s.currentBreakType = none) (hnow : 0 < now) :
    (s.updateState now).Facts now ↔ s.Settled now := by
  unfold updateState Settled
  cases hu : s.idleState with
  | idle => exact facts_updateIdle_iff hs hu
  | active =>
    refine facts_announceBreak_iff (hs.creditIdleTime hnow) ?_ ?_
    · rw [creditIdleTime_idleState, hu]
    · simpa using hnone

/-! ## What a reachable state looks like -/

/-- A state in which the handlers call `_updateState`. -/
structure Ready (s : State) : Prop where
  positive : s.Positive
  noType : s.state = .active → s.currentBreakType = none
  started : s.state ≠ .disabled

theorem Updates.positive {s s' : State} {new : BreakState} {current : Option BreakType}
    (h : s.Updates s' new current) (hs : s.Positive) : s'.Positive := by
  intro b hb
  rw [h.breaks] at hb
  exact hs b hb

theorem updateIdle_updates (now : ℚ) (hpos : s.Positive) :
    ∃ new current, s.Updates (s.updateIdle now) new current ∧ (new = .idle ∨ new = .inBreak) := by
  by_cases hne : s.breaks = []
  · exact ⟨_, _, updateIdle_of_nil hne, .inl rfl⟩
  · by_cases hdue : s.Due now
    · obtain ⟨t, -, hup⟩ := updateIdle_of_due hpos hdue
      refine ⟨_, _, hup, ?_⟩
      unfold breakStateWhenIdle
      split <;> simp
    · obtain ⟨t, -, hup⟩ := updateIdle_of_not_due hpos hne hdue
      exact ⟨_, _, hup, .inl rfl⟩

theorem Ready.creditIdleTime (h : s.Ready) (hnow : 0 < now) : (s.creditIdleTime now).Ready where
  positive := h.positive.creditIdleTime hnow
  noType := by simpa using h.noType
  started := by simpa using h.started

theorem Ready.announceBreak (h : s.Ready) (now : ℚ) : (s.announceBreak now).Ready := by
  by_cases hdue : s.Due now
  · by_cases hst : s.state = .active
    · obtain ⟨t, -, hup⟩ := announceBreak_of_due h.positive hdue hst
      exact ⟨hup.positive h.positive, by simp [hup.state], by simp [hup.state]⟩
    · rwa [announceBreak_of_due_of_ne h.positive hdue hst]
  · have hup := announceBreak_of_not_due h.positive hdue
    refine ⟨hup.positive h.positive, fun _ => ?_, by simp [hup.state]⟩
    rw [hup.current]
    split
    · next hst => exact h.noType hst
    · rfl

theorem Ready.updateState (h : s.Ready) (hnow : 0 < now) : (s.updateState now).Ready := by
  unfold State.updateState
  cases s.idleState with
  | idle =>
    obtain ⟨new, current, hup, hnew⟩ := updateIdle_updates now h.positive
    refine ⟨hup.positive h.positive, ?_, ?_⟩
    · rcases hnew with rfl | rfl <;> simp [hup.state]
    · rcases hnew with rfl | rfl <;> simp [hup.state]
  | active => exact (h.creditIdleTime hnow).announceBreak now

theorem Ready.sound (h : s.Ready) : s.Sound :=
  ⟨h.positive, h.noType, fun hst => absurd hst h.started⟩

theorem Sound.ready (h : s.Sound) (hst : s.state ≠ .disabled) : s.Ready :=
  ⟨h.positive, h.noType, hst⟩

theorem Positive.loadBreakType (h : s.Positive) (hnow : 0 < now)
    (t : BreakType) : (s.loadBreakType now t).Positive := by
  unfold State.loadBreakType
  split
  · intro b hb
    rcases List.mem_append.mp hb with hb | hb
    · exact h b hb
    · rw [List.mem_singleton.mp hb]
      exact hnow
  split
  · exact fun b hb => h b (List.mem_filter.mp hb).1
  · exact h

theorem loadBreakType_fields (s : State) (now : ℚ) (t : BreakType) :
    (s.loadBreakType now t).state = s.state ∧
      (s.loadBreakType now t).currentBreakType = s.currentBreakType := by
  unfold loadBreakType
  split
  · exact ⟨rfl, rfl⟩
  · split <;> exact ⟨rfl, rfl⟩

theorem Positive.loadSettings (h : s.Positive) (hnow : 0 < now) : (s.loadSettings now).Positive :=
  (h.loadBreakType hnow .eyesight).loadBreakType hnow .movement

theorem loadSettings_fields (s : State) (now : ℚ) : (s.loadSettings now).state = s.state ∧
      (s.loadSettings now).currentBreakType = s.currentBreakType := by
  have h1 := loadBreakType_fields s now .eyesight
  have h2 := loadBreakType_fields (s.loadBreakType now .eyesight) now .movement
  exact ⟨h2.1.trans h1.1, h2.2.trans h1.2⟩

theorem Ready.mapDue (h : s.Ready) (now : ℚ) {f : Break → ℚ}
    (hf : ∀ b, 0 < b.lastEnd → 0 < f b) : (s.mapDue now f).Ready := by
  refine ⟨h.positive.map rfl fun b hb => ?_, h.noType, h.started⟩
  split
  · exact hf b hb
  · exact hb

theorem Ready.notify (h : s.Ready) (g : Signal) : (s.notify g).Ready :=
  ⟨h.positive, h.noType, h.started⟩

theorem Ready.delayDue (h : s.Ready) (now : ℚ) : (s.delayDue now).Ready := by
  refine ((h.mapDue now fun b hb => ?_).notify _).notify _
  have hdelay : (0 : ℚ) ≤ (s.settings.breakSettings b.type).delaySeconds := Nat.cast_nonneg _
  linarith

theorem Ready.skipDue (h : s.Ready) (hnow : 0 < now) : (s.skipDue now).Ready :=
  ((h.mapDue now fun _ _ => hnow).notify _).notify _

end State

open State

theorem handle_call {s u : State} {now : ℚ} (hs : s.Sound)
    (h : handle s e = some (.call u now)) : u.Ready ∧ 0 < now := by
  cases e with
  | write settings => simp [handle] at h
  | updateSettings now startNow =>
    simp only [handle] at h
    split at h
    · cases h
    split at h
    · cases h
      have hload := hs.positive.loadSettings now.2
      exact ⟨⟨hload, fun _ => rfl, nofun⟩, startNow.2⟩
    · next hst =>
      cases h
      obtain ⟨hstate, hcur⟩ := loadSettings_fields s now
      refine ⟨⟨hs.positive.loadSettings now.2, fun h => ?_, ?_⟩, now.2⟩
      · rw [hcur]
        exact hs.noType (hstate ▸ h)
      · rw [hstate]
        exact hst
  | breakSettingsChanged t now =>
    simp only [handle] at h
    split at h
    · next hen =>
      cases h
      refine ⟨hs.ready fun hst => ?_, now.2⟩
      simp [Enabled, (hs.stopped hst).1] at hen
    · cases h
  | onIdleWatch now =>
    simp only [handle] at h
    split at h
    · next hw =>
      cases h
      have hr : s.Ready := hs.ready fun hst => by simp [(hs.stopped hst).2.1] at hw
      exact ⟨⟨hr.positive, hr.noType, hr.started⟩, now.2⟩
    · cases h
  | onUserActiveWatch now =>
    simp only [handle] at h
    split at h
    · next hw =>
      cases h
      have hr : s.Ready := hs.ready fun hst => by simp [(hs.stopped hst).2.2.1] at hw
      exact ⟨⟨hr.positive, hr.noType, hr.started⟩, now.2⟩
    · cases h
  | timer now =>
    simp only [handle] at h
    split at h
    · next hw =>
      cases h
      have hr : s.Ready := hs.ready fun hst => by simp [(hs.stopped hst).2.2.2] at hw
      exact ⟨⟨hr.positive, hr.noType, hr.started⟩, now.2⟩
    · cases h
  | delayBreak now =>
    simp only [handle] at h
    split at h
    · cases h
    · next hst =>
      cases h
      exact ⟨(hs.ready hst).delayDue now, now.2⟩
  | skipBreak now =>
    simp only [handle] at h
    split at h
    · cases h
    · next hst =>
      cases h
      exact ⟨(hs.ready hst).skipDue now.2, now.2⟩
  | takeBreak => simp [handle] at h

theorem handle_done {s u : State} (hs : s.Sound) (h : handle s e = some (.done u)) : u.Sound := by
  cases e with
  | write settings =>
    cases h
    exact ⟨hs.positive, hs.noType, hs.stopped⟩
  | updateSettings now startNow =>
    simp only [handle] at h
    split at h
    · cases h
      exact ⟨nofun, nofun, fun _ => ⟨rfl, rfl, rfl, rfl⟩⟩
    split at h <;> cases h
  | breakSettingsChanged t now =>
    simp only [handle] at h
    split at h <;> cases h
  | onIdleWatch now =>
    simp only [handle] at h
    split at h <;> cases h
  | onUserActiveWatch now =>
    simp only [handle] at h
    split at h <;> cases h
  | timer now =>
    simp only [handle] at h
    split at h <;> cases h
  | delayBreak now =>
    simp only [handle] at h
    split at h
    · cases h
      exact hs
    · cases h
  | skipBreak now =>
    simp only [handle] at h
    split at h
    · cases h
      exact hs
    · cases h
  | takeBreak =>
    cases h
    exact ⟨hs.positive, hs.noType, hs.stopped⟩

theorem sound_new (settings : Settings) : (State.new settings).Sound :=
  ⟨nofun, nofun, fun _ => ⟨rfl, rfl, rfl, rfl⟩⟩

/-- **The step lemma.** -/
theorem sound_step {s s' : State} (hs : s.Sound) (h : step s e = some s') : s'.Sound := by
  obtain ⟨r, hr, rfl⟩ := Option.map_eq_some_iff.mp h
  cases r with
  | call u now =>
    obtain ⟨hready, hnow⟩ := handle_call hs hr
    exact (hready.updateState hnow).sound
  | done u => exact handle_done hs hr

/-! ## Runs -/

variable (s : State)

/-- If handling the event calls `_updateState`, the state after it agrees with the facts. -/
def FactsAfter (e : Event) : Prop :=
  match handle s e with
  | some (.call u now) => (u.updateState now).Facts now
  | _ => True

/-- If handling the event calls `_updateState`, the state is settled then. -/
def SettledBefore (e : Event) : Prop :=
  match handle s e with
  | some (.call u now) => u.Settled now
  | _ => True

instance (e : Event) : Decidable (FactsAfter s e) :=
  match h : handle s e with
  | some (.call u now) => decidable_of_iff ((u.updateState now).Facts now) (by simp [FactsAfter, h])
  | some (.done _) => .isTrue (by simp [FactsAfter, h])
  | none => .isTrue (by simp [FactsAfter, h])

instance (e : Event) : Decidable (SettledBefore s e) :=
  match h : handle s e with
  | some (.call u now) => decidable_of_iff (u.Settled now) (by simp [SettledBefore, h])
  | some (.done _) => .isTrue (by simp [SettledBefore, h])
  | none => .isTrue (by simp [SettledBefore, h])

theorem factsAfter_iff {s : State} (hs : s.Sound) : FactsAfter s e ↔ SettledBefore s e := by
  unfold FactsAfter SettledBefore
  match h : handle s e with
  | some (.call u now) =>
    obtain ⟨hready, hnow⟩ := handle_call hs h
    exact facts_updateState_iff hready.positive hready.noType hnow
  | some (.done u) => exact Iff.rfl
  | none => exact Iff.rfl

/-- **State against facts.** In a run of the manager, from its construction, every completed
`_updateState` leaves a state that agrees with the facts if and only if every one of them was
called in a settled state. -/
theorem factsAfter_run_iff (settings : Settings) (es : List Event) :
    Runs.Allowed step FactsAfter (State.new settings) es ↔
      Runs.Allowed step SettledBefore (State.new settings) es :=
  Runs.Allowed.congr (sound_new settings) (fun _ _ => factsAfter_iff) fun _ _ _ hs _ => sound_step hs

def movementBreaks : Settings := ⟨["movement"], fun _ => ⟨300, 1800, 300⟩⟩

example : Runs.Allowed step SettledBefore (State.new movementBreaks)
    [.updateSettings ⟨100, by norm_num⟩ ⟨100, by norm_num⟩, .timer ⟨1900, by norm_num⟩,
      .onIdleWatch ⟨1910, by norm_num⟩, .timer ⟨2200, by norm_num⟩,
      .onUserActiveWatch ⟨2300, by norm_num⟩] := by
  decide +kernel

/-- A break is due at 1900, and the user is idle from 1995 to 2010, which is less than the five
minutes it should take: the state stays `IN_BREAK` with the user active. -/
theorem not_facts_after_short_break :
    ¬ ∀ settings es, Runs.Allowed step FactsAfter (State.new settings) es := by
  intro h
  have hrun := h movementBreaks
    [.updateSettings ⟨100, by norm_num⟩ ⟨100, by norm_num⟩, .timer ⟨1900, by norm_num⟩,
      .onIdleWatch ⟨2005, by norm_num⟩, .onUserActiveWatch ⟨2010, by norm_num⟩]
  revert hrun
  decide +kernel

end BreakManager
