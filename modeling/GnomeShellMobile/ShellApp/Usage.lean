import GnomeShellMobile.Runs.Basic
import Mathlib.Algebra.Order.Field.Rat

/-!
# ShellAppUsage — the switch `remember-app-usage`

What `src/shell-app-usage.c` records of the applications, and when. Applications are known by
their ids; scores are exact.

* `Kept`: nothing is recorded while the switch is off, and no time of then is credited later.
* `kept_step`: a step keeps it if it meets `Unwatched`, and `run_kept` for runs.
-/

namespace ShellAppUsage

def focusTimeMinSeconds : ℕ := 7

def idleTimeTransitionSeconds : ℤ := 30

def scoreMax : ℚ := (3600 * 50 / focusTimeMinSeconds : ℕ)

def sessionStatusIdle : ℕ := 3

structure UsageData where
  score : ℚ
  lastSeen : ℤ
deriving DecidableEq

structure State (α : Type*) where
  /-- `focus-app` of the window tracker. -/
  focusApp : Option α
  saveQueued : Bool
  currentlyIdle : Bool
  enableMonitoring : Bool
  watchStartTime : ℤ
  watchedApp : Option α
  appUsages : α → Option UsageData
  /-- The monitoring has been on since `watchStartTime`. -/
  watching : Bool

variable {α : Type*} [DecidableEq α]

namespace State

variable (s : State α)

variable (app : α)

def usage : UsageData := (s.appUsages app).getD ⟨0, 0⟩

/-- The difference is a `guint`. -/
def usageCount (time : ℤ) : ℕ :=
  ((time - s.watchStartTime) % 2 ^ 32).toNat / focusTimeMinSeconds

def setUsage (usage : UsageData) : State α :=
  { s with appUsages := Function.update s.appUsages app (some usage) }

def normalizeUsage : State α :=
  { s with appUsages := fun app => (s.appUsages app).map fun u => { u with score := u.score / 2 } }

def incrementUsageForAppAtTime (time : ℤ) : State α :=
  let usage := { s.usage app with lastSeen := time }
  let count := s.usageCount time
  if 0 < count then
    let s := s.setUsage app { usage with score := usage.score + count }
    let s := if scoreMax < usage.score + count then s.normalizeUsage else s
    { s with saveQueued := true }
  else s.setUsage app usage

def onAppStateChanged (windowBacked running : Bool) (now : ℤ) : State α :=
  if windowBacked then s
  else s.setUsage app (if running then { s.usage app with lastSeen := now } else s.usage app)

/-- `on_focus_app_changed`; `on` is what the switch says. -/
def onFocusAppChanged (on : Bool) (now : ℤ) : State α :=
  let s := match s.watchedApp with
    | none => s
    | some app => s.incrementUsageForAppAtTime app now
  { s with watchedApp := s.focusApp, watchStartTime := now, watching := on }

def onSessionStatusChanged (status : ℕ) (now : ℤ) : State α :=
  let idle := decide (sessionStatusIdle ≤ status)
  if s.currentlyIdle = idle then s
  else
    let s := { s with currentlyIdle := idle }
    if idle then
      match s.watchedApp with
      | none => s
      | some app =>
        s.incrementUsageForAppAtTime app (s.watchStartTime + idleTimeTransitionSeconds)
    else { s with watchStartTime := now, watching := s.enableMonitoring }

def updateEnableMonitoring (enable : Bool) (now : ℤ) : State α :=
  let s :=
    if enable ∧ ¬s.enableMonitoring then s.onFocusAppChanged true now
    else if ¬enable ∧ s.enableMonitoring then
      { s with watchedApp := none, saveQueued := false, watching := false }
    else s
  { s with enableMonitoring := enable }

def new (appUsages : α → Option UsageData) (focusApp : Option α) (enable : Bool) (now : ℤ) :
    State α :=
  updateEnableMonitoring
    { focusApp := focusApp
      saveQueued := false
      currentlyIdle := false
      enableMonitoring := false
      watchStartTime := 0
      watchedApp := none
      appUsages := appUsages
      watching := false } enable now

end State

inductive Event (α : Type*) where
  | focusAppChanged (app : Option α) (now : ℤ)
  | appStateChanged (app : α) (windowBacked running : Bool) (now : ℤ)
  | sessionStatusChanged (status : ℕ) (now : ℤ)
  | rememberAppUsage (enable : Bool) (now : ℤ)
  | save
deriving DecidableEq

variable (s : State α)

def step : Event α → Option (State α)
  | .focusAppChanged app now =>
    some ({ s with focusApp := app }.onFocusAppChanged s.enableMonitoring now)
  | .appStateChanged app windowBacked running now =>
    some (s.onAppStateChanged app windowBacked running now)
  | .sessionStatusChanged status now => some (s.onSessionStatusChanged status now)
  | .rememberAppUsage enable now => some (s.updateEnableMonitoring enable now)
  | .save => if s.saveQueued then some { s with saveQueued := false } else none

def Event.IsSwitch : Event α → Prop
  | .rememberAppUsage _ _ => True
  | _ => False

structure Kept (e : Event α) (t : State α) : Prop where
  off : s.enableMonitoring = false → ¬e.IsSwitch → ∀ app, t.usage app = s.usage app
  credited : ∀ app, (t.usage app).score ≠ (s.usage app).score → s.watching = true

/-- What happens while the switch is off, and the switch itself, find no application that is watched
(or has a record that stays), and no application starts to run (or it was seen in this second). -/
def Unwatched : Event α → Prop
  | .focusAppChanged _ now => s.enableMonitoring = false → ∀ app ∈ s.watchedApp,
      (s.usage app).lastSeen = now ∧ s.usageCount now = 0
  | .appStateChanged app windowBacked running now => s.enableMonitoring = false →
      windowBacked = false → running = true → (s.usage app).lastSeen = now
  | .sessionStatusChanged status _ => s.enableMonitoring = false → s.currentlyIdle = false →
      sessionStatusIdle ≤ status → s.watchedApp = none
  | .rememberAppUsage enable now => s.enableMonitoring = false → enable = true →
      ∀ app ∈ s.watchedApp, s.usageCount now = 0
  | .save => True

instance (e : Event α) : Decidable (Unwatched s e) := by
  unfold Unwatched
  split <;> infer_instance

/-! ## Records -/

section Steps

variable {s t : State α}

theorem usage_setUsage (s : State α) (app v : α) (u : UsageData) :
    (s.setUsage app u).usage v = if v = app then u else s.usage v := by
  unfold State.usage State.setUsage
  dsimp only
  rw [Function.update_apply]
  split <;> rfl

theorem score_incrementUsageForAppAtTime {time : ℤ} (hcount : s.usageCount time = 0) (app v : α) :
    ((s.incrementUsageForAppAtTime app time).usage v).score = (s.usage v).score := by
  unfold State.incrementUsageForAppAtTime
  dsimp only
  rw [hcount, if_neg (Nat.lt_irrefl 0), usage_setUsage]
  split
  · next heq => rw [heq]
  · rfl

theorem usage_incrementUsageForAppAtTime {app : α} {time : ℤ} (hcount : s.usageCount time = 0)
    (hseen : (s.usage app).lastSeen = time) (v : α) :
    (s.incrementUsageForAppAtTime app time).usage v = s.usage v := by
  unfold State.incrementUsageForAppAtTime
  dsimp only
  rw [hcount, if_neg (Nat.lt_irrefl 0), usage_setUsage]
  split
  · next heq => rw [heq, ← hseen]
  · rfl

theorem usage_onFocusAppChanged_of_seen (on : Bool) {now : ℤ}
    (hseen : ∀ app ∈ s.watchedApp, (s.usage app).lastSeen = now ∧ s.usageCount now = 0) (v : α) :
    (s.onFocusAppChanged on now).usage v = s.usage v := by
  unfold State.onFocusAppChanged
  cases hwatched : s.watchedApp with
  | none => rfl
  | some app =>
    obtain ⟨hlast, hcount⟩ := hseen app hwatched
    exact usage_incrementUsageForAppAtTime hcount hlast v

theorem score_onFocusAppChanged (on : Bool) {now : ℤ}
    (hcount : ∀ app ∈ s.watchedApp, s.usageCount now = 0) (v : α) :
    ((s.onFocusAppChanged on now).usage v).score = (s.usage v).score := by
  unfold State.onFocusAppChanged
  cases hwatched : s.watchedApp with
  | none => rfl
  | some app => exact score_incrementUsageForAppAtTime (hcount app hwatched) app v

theorem usage_onAppStateChanged {app : α} {windowBacked running : Bool} {now : ℤ}
    (hseen : windowBacked = false → running = true → (s.usage app).lastSeen = now) (v : α) :
    (s.onAppStateChanged app windowBacked running now).usage v = s.usage v := by
  unfold State.onAppStateChanged
  cases windowBacked with
  | true => rfl
  | false =>
    rw [if_neg Bool.false_ne_true, usage_setUsage]
    split
    · next heq =>
      rw [heq]
      cases running with
      | true =>
        have hlast := hseen rfl rfl
        rw [← hlast]
        rfl
      | false => rfl
    · rfl

theorem score_onAppStateChanged (s : State α) (app : α) (windowBacked running : Bool) (now : ℤ)
    (v : α) : ((s.onAppStateChanged app windowBacked running now).usage v).score =
      (s.usage v).score := by
  unfold State.onAppStateChanged
  cases windowBacked with
  | true => rfl
  | false =>
    rw [if_neg Bool.false_ne_true, usage_setUsage]
    split
    · next heq =>
      rw [heq]
      cases running <;> rfl
    · rfl

theorem usage_onSessionStatusChanged {status : ℕ} {now : ℤ}
    (hidle : s.currentlyIdle = false → sessionStatusIdle ≤ status → s.watchedApp = none) (v : α) :
    (s.onSessionStatusChanged status now).usage v = s.usage v := by
  unfold State.onSessionStatusChanged
  dsimp only
  split
  · rfl
  · next hne =>
    split
    · next his =>
      have hle : sessionStatusIdle ≤ status := of_decide_eq_true his
      have hnot : s.currentlyIdle = false := by
        cases hcurrent : s.currentlyIdle with
        | false => rfl
        | true => exact absurd (hcurrent.trans his.symm) hne
      rw [hidle hnot hle]
      rfl
    · rfl

theorem score_updateEnableMonitoring {enable : Bool} {now : ℤ}
    (hcount : s.enableMonitoring = false → enable = true →
      ∀ app ∈ s.watchedApp, s.usageCount now = 0) (v : α) :
    ((s.updateEnableMonitoring enable now).usage v).score = (s.usage v).score := by
  unfold State.updateEnableMonitoring
  dsimp only
  split
  · next hon =>
    have hoff : s.enableMonitoring = false := eq_false_of_ne_true hon.2
    exact score_onFocusAppChanged true (hcount hoff hon.1) v
  · split <;> rfl

/-! ## Steps -/

/-- While the monitoring is on it has been on since `watchStartTime`. -/
def Watching (s : State α) : Prop := s.enableMonitoring = true → s.watching = true

theorem enableMonitoring_incrementUsageForAppAtTime (s : State α) (app : α) (time : ℤ) :
    (s.incrementUsageForAppAtTime app time).enableMonitoring = s.enableMonitoring ∧
      (s.incrementUsageForAppAtTime app time).watching = s.watching := by
  unfold State.incrementUsageForAppAtTime
  dsimp only
  split
  · split <;> exact ⟨rfl, rfl⟩
  · exact ⟨rfl, rfl⟩

theorem enableMonitoring_onFocusAppChanged (s : State α) (on : Bool) (now : ℤ) :
    (s.onFocusAppChanged on now).enableMonitoring = s.enableMonitoring := by
  unfold State.onFocusAppChanged
  cases s.watchedApp with
  | none => rfl
  | some app => exact (enableMonitoring_incrementUsageForAppAtTime s app now).1

section

variable (h : Watching s)
include h

theorem watching_onSessionStatusChanged (status : ℕ) (now : ℤ) :
    Watching (s.onSessionStatusChanged status now) := by
  unfold State.onSessionStatusChanged
  dsimp only
  split
  · exact h
  · split
    · cases s.watchedApp with
      | none => exact h
      | some app =>
        intro henabled
        obtain ⟨hon, hwatching⟩ := enableMonitoring_incrementUsageForAppAtTime _ app _
        exact hwatching.trans (h (hon.symm.trans henabled))
    · exact id

theorem watching_updateEnableMonitoring (enable : Bool) (now : ℤ) :
    Watching (s.updateEnableMonitoring enable now) := by
  intro henable
  have hon : enable = true := henable
  unfold State.updateEnableMonitoring
  dsimp only
  split
  · rfl
  · next hnot =>
    split
    · next hoff => exact absurd hon hoff.1
    · refine h ?_
      cases hmonitoring : s.enableMonitoring with
      | true => rfl
      | false => exact absurd ⟨hon, by rw [hmonitoring]; exact Bool.false_ne_true⟩ hnot

theorem watching_step {e : Event α} (hstep : step s e = some t) : Watching t := by
  cases e with
  | focusAppChanged app now =>
    cases hstep
    intro henabled
    have hsame := enableMonitoring_onFocusAppChanged { s with focusApp := app } s.enableMonitoring now
    exact hsame.symm.trans henabled
  | appStateChanged app windowBacked running now =>
    cases hstep
    unfold State.onAppStateChanged
    split
    · exact h
    · exact h
  | sessionStatusChanged status now =>
    cases hstep
    exact watching_onSessionStatusChanged h status now
  | rememberAppUsage enable now =>
    cases hstep
    exact watching_updateEnableMonitoring h enable now
  | save =>
    simp only [step, Option.ite_none_right_eq_some, Option.some.injEq] at hstep
    rw [← hstep.2]
    exact h

/-- **A step.** -/
theorem kept_step {e : Event α} (hok : Unwatched s e)
    (hstep : step s e = some t) : Kept s e t := by
  -- while the monitoring is on everything may be credited
  cases hmonitoring : s.enableMonitoring with
  | true =>
    refine ⟨fun hoff => ?_, fun _ _ => h hmonitoring⟩
    cases hmonitoring.symm.trans hoff
  | false =>
    cases e with
    | focusAppChanged app now =>
      cases hstep
      have hsame := usage_onFocusAppChanged_of_seen (s := { s with focusApp := app })
        s.enableMonitoring (hok hmonitoring)
      exact ⟨fun _ _ => hsame, fun v hne => absurd (congrArg UsageData.score (hsame v)) hne⟩
    | appStateChanged app windowBacked running now =>
      cases hstep
      have hsame := usage_onAppStateChanged (hok hmonitoring)
      exact ⟨fun _ _ => hsame, fun v hne => absurd (congrArg UsageData.score (hsame v)) hne⟩
    | sessionStatusChanged status now =>
      cases hstep
      have hsame : ∀ v, (s.onSessionStatusChanged status now).usage v = s.usage v :=
        usage_onSessionStatusChanged (hok hmonitoring)
      exact ⟨fun _ _ => hsame, fun v hne => absurd (congrArg UsageData.score (hsame v)) hne⟩
    | rememberAppUsage enable now =>
      cases hstep
      exact ⟨fun _ hnot => absurd trivial hnot,
        fun v hne => absurd (score_updateEnableMonitoring hok v) hne⟩
    | save =>
      simp only [step, Option.ite_none_right_eq_some, Option.some.injEq] at hstep
      rw [← hstep.2]
      exact ⟨fun _ _ _ => rfl, fun _ hne => absurd rfl hne⟩

end

end Steps

/-! ## Runs -/

theorem watching_new (appUsages : α → Option UsageData) (focusApp : Option α) (enable : Bool)
    (now : ℤ) : Watching (.new appUsages focusApp enable now) :=
  watching_updateEnableMonitoring (fun hfalse => by cases hfalse) enable now

/-- **The switch along a run.** -/
theorem run_kept (appUsages : α → Option UsageData) (focusApp : Option α) (enable : Bool) (now : ℤ)
    {es : List (Event α)}
    (hok : Runs.Allowed step Unwatched (.new appUsages focusApp enable now) es) :
    Runs.Along step Kept (.new appUsages focusApp enable now) es :=
  hok.along (watching_new appUsages focusApp enable now) fun _ _ _ h hok hstep =>
    ⟨kept_step h hok hstep, watching_step h hstep⟩

def switchedOff : List (Event String) :=
  [.focusAppChanged (some "maps") 100, .appStateChanged "maps" false true 100,
    .sessionStatusChanged 3 400, .sessionStatusChanged 0 500, .rememberAppUsage false 510,
    .appStateChanged "maps" false false 520, .focusAppChanged none 530, .focusAppChanged none 540,
    .rememberAppUsage true 600, .focusAppChanged (some "maps") 610, .focusAppChanged none 700]

theorem run_kept_switchedOff :
    (Runs.run step (.new (fun _ => none) none true 0) switchedOff).isSome ∧
      Runs.Along step Kept (.new (fun _ => none) none true 0) switchedOff :=
  ⟨by decide +kernel, run_kept (fun _ => none) none true 0 (by decide +kernel)⟩

def focusedOff : State String :=
  .new (fun _ => none) none false 0

/-- Off, an application that starts to run is recorded, -/
theorem not_run_kept : (∃ t, step focusedOff (.appStateChanged "maps" false true 50) = some t ∧
      ¬Kept focusedOff (.appStateChanged "maps" false true 50) t) ∧
    -- so is one that had the focus, and when the switch is turned on its time is credited
    (∃ s t, step focusedOff (.focusAppChanged (some "maps") 100) = some s ∧
      step s (.focusAppChanged none 200) = some t ∧ ¬Kept s (.focusAppChanged none 200) t) ∧
    ∃ s t, step focusedOff (.focusAppChanged (some "maps") 100) = some s ∧
      step s (.rememberAppUsage true 200) = some t ∧ ¬Kept s (.rememberAppUsage true 200) t := by
  refine ⟨?_, ?_, ?_⟩
  · refine ⟨_, rfl, fun hkept => ?_⟩
    have hsame := congrArg UsageData.lastSeen (hkept.off rfl id "maps")
    exact absurd hsame (by decide)
  · refine ⟨_, _, rfl, rfl, fun hkept => ?_⟩
    have hsame := congrArg UsageData.lastSeen (hkept.off rfl id "maps")
    exact absurd hsame (by decide +kernel)
  · refine ⟨_, _, rfl, rfl, fun hkept => ?_⟩
    have hwatching := hkept.credited "maps" (by decide +kernel)
    cases hwatching

end ShellAppUsage
