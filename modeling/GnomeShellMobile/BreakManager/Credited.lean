import GnomeShellMobile.BreakManager.NextBreak

/-!
# BreakManager — the breaks that are credited

While the user is idle the end of a break is announced once its duration has passed since it was due.
When the user is active again the idle time is credited to the break types it is long enough for, and
it is counted from the start of the idle time. A break that was due before that is announced too
early: `credited_run_iff` says when an announced break is credited.
-/

namespace BreakManager

namespace State

variable {s s' : State} {now : ℚ} {t : BreakType}

/-! ## The user is active again -/

variable (s)

def Fits (now : ℚ) (t : BreakType) : Prop := (s.duration t : ℚ) ≤ now - s.idleStartTime
deriving Decidable

def creditBreak (now : ℚ) (b : Break) : Break :=
  if 0 < s.idleStartTime ∧ s.Fits now b.type then { b with lastEnd := now } else b

theorem type_creditBreak (now : ℚ) (b : Break) : (s.creditBreak now b).type = b.type := by
  unfold creditBreak
  split <;> rfl

theorem breaks_creditIdleTime (now : ℚ) :
    (s.creditIdleTime now).breaks = s.breaks.map (s.creditBreak now) := by
  unfold creditIdleTime
  split
  · next hstart =>
    show s.resetBreaks now = _
    refine List.map_congr_left fun b _ => ?_
    by_cases hfits : s.Fits now b.type
    · have hcredit : s.creditBreak now b = { b with lastEnd := now } := if_pos ⟨hstart, hfits⟩
      rw [hcredit]
      exact if_pos hfits
    · have hcredit : s.creditBreak now b = b := if_neg fun h => hfits h.2
      rw [hcredit]
      exact if_neg hfits
  · next hstart =>
    have hsame : ∀ b ∈ s.breaks, s.creditBreak now b = b := fun b _ => if_neg fun h => hstart h.1
    show s.breaks = _
    rw [List.map_congr_left hsame, List.map_id']

theorem settings_creditIdleTime (now : ℚ) :
    (s.creditIdleTime now).settings = s.settings := by
  unfold creditIdleTime
  split <;> rfl

variable {s}

theorem settings_announceBreak (hpos : s.Positive) (now : ℚ) :
    (s.announceBreak now).settings = s.settings := by
  by_cases hdue : s.Due now
  · by_cases hst : s.state = .active
    · obtain ⟨t, -, hup⟩ := announceBreak_of_due hpos hdue hst
      exact hup.settings
    · rw [announceBreak_of_due_of_ne hpos hdue hst]
  · exact (announceBreak_of_not_due hpos hdue).settings

theorem breaks_onUserActiveWatch {now : RealTime} (hs : s.Sound)
    (h : step s (.onUserActiveWatch now) = some s') :
    s'.breaks = s.breaks.map (s.creditBreak now) ∧ s'.settings = s.settings := by
  obtain ⟨r, hr, rfl⟩ := Option.map_eq_some_iff.mp h
  rw [handle] at hr
  split at hr
  · cases hr
    have hpos : (s.userActiveWatchFired.creditIdleTime now).Positive :=
      Positive.creditIdleTime (s := s.userActiveWatchFired) hs.positive now.2
    show ((s.userActiveWatchFired.creditIdleTime now).announceBreak now).breaks = _ ∧
      ((s.userActiveWatchFired.creditIdleTime now).announceBreak now).settings = _
    rw [breaks_announceBreak hpos, settings_announceBreak hpos, breaks_creditIdleTime,
      settings_creditIdleTime]
    exact ⟨rfl, rfl⟩
  · cases hr

/-! ## Credited -/

def Credits (s : State) (now : ℚ) (t : BreakType) (s' : State) : Prop :=
  s'.Enabled t ∧ ∀ b ∈ s'.breaks, b.type = t ∨ s.Fits now b.type →
    b.lastEnd = now ∧ now < s'.wouldBeDueAt b
deriving Decidable

/-- The break type is enabled, and the idle time is long enough for it; and neither it nor another one
that the idle time is long enough for is due again at once. -/
def CreditsWhen (s : State) (now : ℚ) (t : BreakType) : Prop :=
  s.Enabled t ∧ ∀ b ∈ s.breaks, b.type = t ∨ s.Fits now b.type →
    0 < (s.settings.breakSettings b.type).intervalSeconds ∧
      (0 < s.idleStartTime ∧ s.Fits now b.type ∨ b.lastEnd = now)
deriving Decidable

theorem creditBreak_iff (hsettings : s'.settings = s.settings) (b : Break) :
    (s.creditBreak now b).lastEnd = now ∧ now < s'.wouldBeDueAt (s.creditBreak now b) ↔
      0 < (s.settings.breakSettings b.type).intervalSeconds ∧
        (0 < s.idleStartTime ∧ s.Fits now b.type ∨ b.lastEnd = now) := by
  have hend : (s.creditBreak now b).lastEnd = now ↔
      0 < s.idleStartTime ∧ s.Fits now b.type ∨ b.lastEnd = now := by
    rw [creditBreak]
    split
    · next hfits => exact iff_of_true rfl (.inl hfits)
    · next hfits => exact (or_iff_right hfits).symm
  have hlater : (s.creditBreak now b).lastEnd = now →
      (now < s'.wouldBeDueAt (s.creditBreak now b) ↔
        0 < (s.settings.breakSettings b.type).intervalSeconds) := by
    intro heq
    rw [wouldBeDueAt, heq, type_creditBreak, hsettings, lt_add_iff_pos_right, Nat.cast_pos]
  rw [and_congr_right hlater, hend, and_comm]

theorem credits_iff {now : RealTime} (hs : s.Sound)
    (h : step s (.onUserActiveWatch now) = some s') (t : BreakType) :
    s.Credits now t s' ↔ s.CreditsWhen now t := by
  obtain ⟨hbreaks, hsettings⟩ := breaks_onUserActiveWatch hs h
  have henabled : s'.Enabled t ↔ s.Enabled t := by
    rw [Enabled, hbreaks, types_map (type_creditBreak s now), Enabled]
  rw [Credits, CreditsWhen, henabled, hbreaks, List.forall_mem_map]
  refine and_congr_right fun _ => forall₂_congr fun b _ => ?_
  rw [type_creditBreak, creditBreak_iff hsettings]

/-! ## Announced -/

def Announces (s s' : State) : Prop :=
  s.signals.count .breakFinished < s'.signals.count .breakFinished

instance (s s' : State) : Decidable (s.Announces s') := Nat.decLt _ _

end State

open State in
/-! ## Runs -/

structure Watched where
  manager : State
  dueBefore : Bool
  finished : List BreakType

namespace Watched

def new (settings : Settings) : Watched := ⟨.new settings, false, []⟩

def announced (s s' : State) : List BreakType :=
  if s.Announces s' then s.currentBreakType.toList ++ s'.currentBreakType.toList else []

def dueAtIdle (s : State) : Event → Bool
  | .onIdleWatch now => decide (s.Due now)
  | _ => false

variable (w : Watched)

variable (e : Event)

def next (s' : State) : Watched :=
  match s'.idleState with
  | .active => ⟨s', false, []⟩
  | .idle =>
    ⟨s', if w.manager.idleState = .idle then w.dueBefore else dueAtIdle w.manager e,
      w.finished ++ announced w.manager s'⟩

def step (w : Watched) (e : Event) : Option Watched := (BreakManager.step w.manager e).map (w.next e)

/-- The user went idle while a break was due, and is active again: each break that was announced as
finished meanwhile is credited. -/
def Credited (w' : Watched) : Prop :=
  match e with
  | .onUserActiveWatch now =>
    w.dueBefore = true → ∀ t ∈ w.finished, w.manager.Credits now t w'.manager
  | _ => True

def LongEnough : Prop :=
  match e with
  | .onUserActiveWatch now =>
    w.dueBefore = true → ∀ t ∈ w.finished, w.manager.CreditsWhen now t
  | _ => True

instance (w' : Watched) : Decidable (w.Credited e w') := by
  unfold Credited
  split <;> infer_instance

instance : Decidable (w.LongEnough e) := by
  unfold LongEnough
  split <;> infer_instance

theorem manager_step {w w' : Watched} {e : Event} (h : w.step e = some w') :
    BreakManager.step w.manager e = some w'.manager := by
  obtain ⟨s', hs', rfl⟩ := Option.map_eq_some_iff.mp h
  rw [hs', next]
  split <;> rfl

theorem credited_iff {w w' : Watched} {e : Event} (hs : w.manager.Sound)
    (h : w.step e = some w') : w.Credited e w' ↔ w.LongEnough e := by
  cases e with
  | onUserActiveWatch now =>
    refine imp_congr_right fun _ => forall₂_congr fun t _ => ?_
    exact State.credits_iff hs (manager_step h) t
  | write _ | updateSettings _ _ | breakSettingsChanged _ _ | onIdleWatch _ | timer _ | delayBreak _
  | skipBreak _ | takeBreak => exact Iff.rfl

/-- **A break that is announced as finished is credited**, all along a run, if and only if the idle
time is long enough for it each time the user is active again. -/
theorem credited_run_iff (settings : Settings) (es : List Event) {w : Watched}
    (hrun : Runs.run step (new settings) es = some w) :
    Runs.Along step Credited (new settings) es ↔ Runs.Allowed step LongEnough (new settings) es :=
  Runs.along_iff_allowed (I := fun w => w.manager.Sound) (sound_new settings)
    (fun _ _ _ hs hstep _ => sound_step hs (manager_step hstep))
    (fun _ _ _ hs hstep => credited_iff hs hstep) hrun

def seconds (n : ℕ) (hn : 0 < n := by decide) : RealTime := ⟨n, Nat.cast_pos.mpr hn⟩

/-- The user is idle since the break of five minutes is due, and comes back after more than that. -/
theorem credited_run_iff_taken_in_full : Runs.Along step Credited (new movementBreaks)
      [.updateSettings (seconds 100) (seconds 100), .timer (seconds 1900),
        .onIdleWatch (seconds 1910), .timer (seconds 2200),
        .onUserActiveWatch (seconds 2300)] := by
  have hruns : (Runs.run step (new movementBreaks)
      [.updateSettings (seconds 100) (seconds 100), .timer (seconds 1900),
        .onIdleWatch (seconds 1910), .timer (seconds 2200),
        .onUserActiveWatch (seconds 2300)]).isSome := by decide +kernel
  obtain ⟨w, hrun⟩ := Option.isSome_iff_exists.mp hruns
  exact (credited_run_iff movementBreaks _ hrun).mpr (by decide +kernel)

/-- The break is due at 1900 and the user is idle from 1995 on: the end is announced at 2200, when
five minutes have passed since 1900, and the user is back at 2250, after less than five minutes. -/
theorem not_credited_after_late_start :
    ¬ ∀ settings es, Runs.Along step Credited (new settings) es := by
  intro h
  have hrun := h movementBreaks
    [.updateSettings (seconds 100) (seconds 100), .timer (seconds 1900),
      .onIdleWatch (seconds 2005), .timer (seconds 2200),
      .onUserActiveWatch (seconds 2250)]
  revert hrun
  decide +kernel

end Watched

end BreakManager
