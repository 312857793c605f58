import GnomeShellMobile.Runs.Basic
import Mathlib.Data.List.Nodup
import Mathlib.Algebra.Order.Ring.Int

/-!
# ShellApp — when an application is running

The windows, the counter `interesting_windows` and the state of `src/shell-app.c`. The counter
stands for a number of windows that are in memory, so that it does not overflow.

* `countP_update`: a window changes, and the counter with it.
* `step_law_iff`: a step keeps `Law` unless a startup ends with windows of which none is interesting.
* Runs: `run_law_iff`.
-/

namespace ShellApp

/-- What is asked of a `MetaWindow`. -/
structure Window where
  isMapped : Bool
  skipTaskbar : Bool
deriving DecidableEq

def Window.interesting (window : Window) : Bool := window.isMapped && !window.skipTaskbar

inductive ShellAppState where
  | stopped
  | starting
  | running
deriving DecidableEq

structure RunningState where
  windows : List ℕ
  interestingWindows : ℤ
deriving DecidableEq

structure State where
  window : ℕ → Window
  state : ShellAppState
  runningState : Option RunningState

namespace State

def new (window : ℕ → Window) : State where
  window := window
  state := .stopped
  runningState := none

def interesting (s : State) (w : ℕ) : Bool := (s.window w).interesting

def windows (s : State) : List ℕ := s.runningState.elim [] (·.windows)

def interestingWindows (s : State) : ℤ := s.runningState.elim 0 (·.interestingWindows)

variable (s : State)

def transition (state : ShellAppState) : State :=
  if s.state = .running ∧ state = .starting then s else { s with state := state }

/-- `shell_app_sync_running_state`, with the running state. -/
def syncRunningState (r : RunningState) : State :=
  let s := { s with runningState := some r }
  if s.state ≠ .starting then
    if r.interestingWindows = 0 then s.transition .stopped else s.transition .running
  else s

variable (w : ℕ)

/-- `_shell_app_add_window`. -/
def addWindow : State :=
  if w ∈ s.windows then s
  else s.syncRunningState ⟨w :: s.windows,
    if s.interesting w then s.interestingWindows + 1 else s.interestingWindows⟩

/-- `_shell_app_remove_window`. -/
def removeWindow : State :=
  if w ∈ s.windows then
    let s := s.syncRunningState ⟨s.windows.erase w,
      if s.interesting w then s.interestingWindows - 1 else s.interestingWindows⟩
    if s.windows = [] then { s with runningState := none } else s
  else s

/-- `shell_app_on_is_mapped_changed`, for a window that is mapped now or not. -/
def onIsMappedChanged : State :=
  s.syncRunningState ⟨s.windows,
    if ¬(s.window w).skipTaskbar then
      if (s.window w).isMapped then s.interestingWindows + 1 else s.interestingWindows - 1
    else s.interestingWindows⟩

/-- `shell_app_on_skip_taskbar_changed`. -/
def onSkipTaskbarChanged : State :=
  s.syncRunningState ⟨s.windows,
    if (s.window w).isMapped then
      if (s.window w).skipTaskbar then s.interestingWindows - 1 else s.interestingWindows + 1
    else s.interestingWindows⟩

/-- `_shell_app_handle_startup_sequence`. -/
def handleStartupSequence (completed : Bool) : State :=
  let s := if ¬completed ∧ s.state = .stopped then s.transition .starting else s
  if ¬completed then s
  else if s.windows ≠ [] then s.transition .running
  else s.transition .stopped

/-- `notify::is-mapped` of a window, which the application hears of if it has the window. -/
def changeIsMapped : State :=
  let s := { s with
    window := Function.update s.window w
      { s.window w with isMapped := !(s.window w).isMapped } }
  if w ∈ s.windows then s.onIsMappedChanged w else s

def changeSkipTaskbar : State :=
  let s := { s with
    window := Function.update s.window w
      { s.window w with skipTaskbar := !(s.window w).skipTaskbar } }
  if w ∈ s.windows then s.onSkipTaskbarChanged w else s

end State

inductive Event where
  | addWindow (w : ℕ)
  | removeWindow (w : ℕ)
  | changeIsMapped (w : ℕ)
  | changeSkipTaskbar (w : ℕ)
  | startupSequence (completed : Bool)
deriving DecidableEq

variable (s : State)

def step : Event → Option State
  | .addWindow w => some (s.addWindow w)
  | .removeWindow w => if s.runningState.isSome then some (s.removeWindow w) else none
  | .changeIsMapped w => some (s.changeIsMapped w)
  | .changeSkipTaskbar w => some (s.changeSkipTaskbar w)
  | .startupSequence completed => some (s.handleStartupSequence completed)

def State.numInteresting : ℤ := s.windows.countP s.interesting

structure Law : Prop where
  counted : s.interestingWindows = s.numInteresting
  windows : s.state = .running → s.windows ≠ []
  running : s.state ≠ .starting → (s.state = .running ↔ 0 < s.interestingWindows)

def Shows : Event → Prop
  | .startupSequence true => s.windows ≠ [] → 0 < s.interestingWindows
  | _ => True

instance (e : Event) : Decidable (Shows s e) := by
  unfold Shows
  split <;> infer_instance

/-! ## Counting -/

theorem countP_update {f g : ℕ → Bool} {l : List ℕ} {w : ℕ} (hnodup : l.Nodup) (hmem : w ∈ l)
    (hother : ∀ v, v ≠ w → g v = f v) :
    (l.countP g : ℤ) + (if f w then 1 else 0) = l.countP f + if g w then 1 else 0 := by
  have hperm := List.perm_cons_erase hmem
  have hrest : (l.erase w).countP g = (l.erase w).countP f := by
    refine List.countP_congr fun v hv => ?_
    have hne : v ≠ w := fun heq => (hnodup.mem_erase_iff.mp hv).1 heq
    rw [hother v hne]
  rw [hperm.countP_eq g, hperm.countP_eq f, List.countP_cons, List.countP_cons, hrest]
  push_cast
  split <;> split <;> omega

theorem countP_erase {f : ℕ → Bool} {l : List ℕ} {w : ℕ} (hmem : w ∈ l) :
    ((l.erase w).countP f : ℤ) = l.countP f - if f w then 1 else 0 := by
  rw [(List.perm_cons_erase hmem).countP_eq f, List.countP_cons]
  push_cast
  split <;> omega

/-! ## Steps -/

section Steps

variable {s t : State} {r : RunningState}

@[simp] theorem syncRunningState_windows (s : State) (r : RunningState) :
    (s.syncRunningState r).windows = r.windows := by
  unfold State.syncRunningState State.transition
  dsimp only
  split
  · split
    · split <;> rfl
    · split <;> rfl
  · rfl

theorem law_syncRunningState (hcount : r.interestingWindows = r.windows.countP s.interesting) :
    Law (s.syncRunningState r) := by
  have hnonneg : 0 ≤ r.interestingWindows := by
    rw [hcount]
    exact Int.natCast_nonneg _
  unfold State.syncRunningState State.transition
  dsimp only
  cases hstate : s.state with
  | starting =>
    rw [if_neg (by decide)]
    exact ⟨hcount, nofun, fun hne => absurd rfl hne⟩
  | stopped | running =>
    rw [if_pos (by decide)]
    by_cases hzero : r.interestingWindows = 0
    · rw [if_pos hzero, if_neg (by decide)]
      refine ⟨hcount, nofun, fun _ => ⟨nofun, fun hpos => ?_⟩⟩
      have hpos' : 0 < r.interestingWindows := hpos
      omega
    · rw [if_neg hzero, if_neg (by decide)]
      refine ⟨hcount, fun _ hnil => ?_, fun _ => ⟨fun _ => ?_, fun _ => rfl⟩⟩
      · have hnil' : r.windows = [] := hnil
        rw [hnil'] at hcount
        exact hzero hcount
      · show 0 < r.interestingWindows
        omega

section

variable (h : Law s)
include h

theorem law_addWindow (w : ℕ) : Law (s.addWindow w) := by
  unfold State.addWindow
  split
  · exact h
  · refine law_syncRunningState ?_
    have hcount := h.counted
    rw [State.numInteresting] at hcount
    show (if s.interesting w then _ else _) = ((w :: s.windows).countP s.interesting : ℤ)
    rw [List.countP_cons]
    push_cast
    split <;> omega

theorem law_clear :
    Law (if s.windows = [] then { s with runningState := none } else s) := by
  split
  · next hnil =>
    have hzero := h.counted
    rw [State.numInteresting, hnil] at hzero
    refine ⟨rfl, fun hrunning => absurd hnil (h.windows hrunning), fun hne => ?_⟩
    have hiff := h.running hne
    rw [hzero] at hiff
    exact hiff
  · exact h

theorem law_removeWindow (w : ℕ) : Law (s.removeWindow w) := by
  unfold State.removeWindow
  split
  · next hmem =>
    refine law_clear (law_syncRunningState ?_)
    have hcount := h.counted
    rw [State.numInteresting] at hcount
    show (if s.interesting w then _ else _) = ((s.windows.erase w).countP s.interesting : ℤ)
    rw [countP_erase hmem]
    split <;> omega
  · exact h

theorem law_changed (hnodup : s.windows.Nodup) {w : ℕ} {window : Window} {n : ℤ}
    (hmem : w ∈ s.windows) (hn : n + (if (s.window w).interesting then 1 else 0) =
      s.interestingWindows + if window.interesting then 1 else 0) :
    Law ({ s with window := Function.update s.window w window }.syncRunningState
      ⟨s.windows, n⟩) := by
  refine law_syncRunningState ?_
  have hcount := h.counted
  rw [State.numInteresting] at hcount
  have hself : State.interesting { s with window := Function.update s.window w window } w =
      window.interesting := congrArg Window.interesting (Function.update_self w window s.window)
  have hupdate := countP_update (f := s.interesting)
    (g := State.interesting { s with window := Function.update s.window w window }) hnodup hmem
    fun v hne => congrArg Window.interesting (Function.update_of_ne hne window s.window)
  rw [hself] at hupdate
  have hbefore : s.interesting w = (s.window w).interesting := rfl
  rw [hbefore] at hupdate
  show n =
    (s.windows.countP (State.interesting { s with window := Function.update s.window w window }) : ℤ)
  omega

theorem law_unchanged {w : ℕ} (hmem : w ∉ s.windows) (window : Window) :
    Law { s with window := Function.update s.window w window } := by
  have hcount : State.numInteresting { s with window := Function.update s.window w window } =
      s.numInteresting := by
    show ((s.windows.countP _ : ℕ) : ℤ) = (s.windows.countP _ : ℕ)
    refine congrArg Nat.cast (List.countP_congr fun v hv => ?_)
    have hne : v ≠ w := fun heq => hmem (heq ▸ hv)
    show (Function.update s.window w window v).interesting = true ↔ _
    rw [Function.update_of_ne hne]
    rfl
  exact ⟨h.counted.trans hcount.symm, h.windows, h.running⟩

theorem law_change (hnodup : s.windows.Nodup) {w : ℕ} {window : Window} {n : ℤ}
    (hn : n + (if (s.window w).interesting then 1 else 0) =
      s.interestingWindows + if window.interesting then 1 else 0) :
    Law (if w ∈ s.windows then
        { s with window := Function.update s.window w window }.syncRunningState ⟨s.windows, n⟩
      else { s with window := Function.update s.window w window }) := by
  split
  · next hmem => exact law_changed h hnodup hmem hn
  · next hmem => exact law_unchanged h hmem window

theorem law_changeIsMapped (hnodup : s.windows.Nodup) (w : ℕ) :
    Law (s.changeIsMapped w) := by
  refine law_change h hnodup ?_
  simp only [Function.update_self, Window.interesting, State.interestingWindows]
  by_cases hmapped : (s.window w).isMapped = true <;>
    by_cases hskip : (s.window w).skipTaskbar = true <;> simp [hmapped, hskip]

theorem law_changeSkipTaskbar (hnodup : s.windows.Nodup) (w : ℕ) :
    Law (s.changeSkipTaskbar w) := by
  refine law_change h hnodup ?_
  simp only [Function.update_self, Window.interesting, State.interestingWindows]
  by_cases hmapped : (s.window w).isMapped = true <;>
    by_cases hskip : (s.window w).skipTaskbar = true <;> simp [hmapped, hskip]

theorem law_handleStartupSequence_iff (completed : Bool) :
    Law (s.handleStartupSequence completed) ↔ Shows s (.startupSequence completed) := by
  cases completed with
  | false =>
    refine iff_of_true ?_ trivial
    unfold State.handleStartupSequence State.transition
    cases hstate : s.state with
    | stopped => exact ⟨h.counted, nofun, fun hne => absurd rfl hne⟩
    | starting => exact h
    | running => exact h
  | true =>
    have hcount := h.counted
    by_cases hnil : s.windows = []
    · refine iff_of_true ?_ fun hne => absurd hnil hne
      have heq : s.handleStartupSequence true = { s with state := .stopped } := by
        simp [State.handleStartupSequence, State.transition, hnil]
      rw [heq]
      refine ⟨hcount, nofun, fun _ => ⟨nofun, fun hpos => ?_⟩⟩
      rw [State.numInteresting, hnil] at hcount
      have hpos' : 0 < s.interestingWindows := hpos
      rw [hcount, List.countP_nil] at hpos'
      cases hpos'
    · have heq : s.handleStartupSequence true = { s with state := .running } := by
        simp [State.handleStartupSequence, State.transition, hnil]
      rw [heq]
      constructor
      · intro hlaw _
        exact (hlaw.running nofun).mp rfl
      · intro hshows
        exact ⟨hcount, fun _ => hnil, fun _ => iff_of_true rfl (hshows hnil)⟩

end

/-- **A step.** -/
theorem step_law_iff {e : Event} (hnodup : s.windows.Nodup) (h : Law s)
    (hstep : step s e = some t) : Law t ↔ Shows s e := by
  cases e with
  | addWindow w =>
    cases hstep
    exact iff_of_true (law_addWindow h w) trivial
  | removeWindow w =>
    simp only [step, Option.ite_none_right_eq_some, Option.some.injEq] at hstep
    rw [← hstep.2]
    exact iff_of_true (law_removeWindow h w) trivial
  | changeIsMapped w =>
    cases hstep
    exact iff_of_true (law_changeIsMapped h hnodup w) trivial
  | changeSkipTaskbar w =>
    cases hstep
    exact iff_of_true (law_changeSkipTaskbar h hnodup w) trivial
  | startupSequence completed =>
    cases hstep
    exact law_handleStartupSequence_iff h completed

@[simp] theorem transition_windows (s : State) (state : ShellAppState) :
    (s.transition state).windows = s.windows := by
  unfold State.transition
  split <;> rfl

theorem windows_handleStartupSequence (s : State) (completed : Bool) :
    (s.handleStartupSequence completed).windows = s.windows := by
  unfold State.handleStartupSequence
  cases completed <;> simp [apply_ite State.windows]

theorem windows_clear (s : State) :
    (if s.windows = [] then { s with runningState := none } else s).windows = s.windows := by
  split
  · next hnil => exact hnil.symm
  · rfl

theorem step_nodup {e : Event} (hnodup : s.windows.Nodup) (hstep : step s e = some t) :
    t.windows.Nodup := by
  cases e with
  | addWindow w =>
    cases hstep
    unfold State.addWindow
    split
    · exact hnodup
    · next hmem =>
      rw [syncRunningState_windows]
      exact List.nodup_cons.mpr ⟨hmem, hnodup⟩
  | removeWindow w =>
    simp only [step, Option.ite_none_right_eq_some, Option.some.injEq] at hstep
    rw [← hstep.2]
    unfold State.removeWindow
    split
    · have hclear := windows_clear (s.syncRunningState ⟨s.windows.erase w,
        if s.interesting w then s.interestingWindows - 1 else s.interestingWindows⟩)
      rw [syncRunningState_windows] at hclear
      dsimp only
      rw [syncRunningState_windows, hclear]
      exact hnodup.erase w
    · exact hnodup
  | changeIsMapped w =>
    cases hstep
    unfold State.changeIsMapped
    dsimp only
    split
    · unfold State.onIsMappedChanged
      rw [syncRunningState_windows]
      exact hnodup
    · exact hnodup
  | changeSkipTaskbar w =>
    cases hstep
    unfold State.changeSkipTaskbar
    dsimp only
    split
    · unfold State.onSkipTaskbarChanged
      rw [syncRunningState_windows]
      exact hnodup
    · exact hnodup
  | startupSequence completed =>
    cases hstep
    rw [windows_handleStartupSequence]
    exact hnodup

end Steps

/-! ## Runs -/

theorem law_new (window : ℕ → Window) : Law (.new window) :=
  ⟨rfl, nofun, fun _ => ⟨nofun, nofun⟩⟩

/-- **The state of an application along a run.** -/
theorem run_law_iff {window : ℕ → Window} {es : List Event} {t : State}
    (hrun : Runs.run step (.new window) es = some t) :
    Runs.Always step Law (.new window) es ↔ Runs.Allowed step Shows (.new window) es :=
  Runs.always_iff_allowed_of_inv (I := fun s => s.windows.Nodup) List.nodup_nil (law_new window)
    (fun _ _ _ hnodup hstep => step_nodup hnodup hstep)
    (fun _ _ _ hnodup h hstep => step_law_iff hnodup h hstep) hrun

def unmapped : ℕ → Window := fun _ => ⟨false, false⟩

def startedUp : List Event :=
  [.startupSequence false, .changeSkipTaskbar 0, .addWindow 0, .changeIsMapped 0, .addWindow 1,
    .changeIsMapped 1, .startupSequence true, .removeWindow 0, .addWindow 2, .changeIsMapped 2,
    .changeSkipTaskbar 2, .changeIsMapped 1, .removeWindow 1, .removeWindow 2]

theorem run_law_iff_startedUp : ∃ t, Runs.run step (.new unmapped) startedUp = some t ∧
      Runs.Always step Law (.new unmapped) startedUp := by
  obtain ⟨t, hrun⟩ : ∃ t, Runs.run step (.new unmapped) startedUp = some t :=
    Option.isSome_iff_exists.mp (by decide)
  exact ⟨t, hrun, (run_law_iff hrun).mpr (by decide)⟩

def earlyCompletion : List Event :=
  [.startupSequence false, .addWindow 0, .startupSequence true]

theorem not_run_law : ∃ t, Runs.run step (.new unmapped) earlyCompletion = some t ∧ ¬Law t := by
  have hend : (Runs.run step (.new unmapped) earlyCompletion).map (fun t =>
      (t.state, t.interestingWindows)) = some (.running, 0) := by decide
  obtain ⟨t, hrun, hstate⟩ := Option.map_eq_some_iff.mp hend
  refine ⟨t, hrun, fun hlaw => ?_⟩
  obtain ⟨hrunning, hzero⟩ := Prod.mk.inj hstate
  have hiff := hlaw.running (by rw [hrunning]; decide)
  rw [hrunning, hzero] at hiff
  exact absurd (hiff.mp rfl) (by decide)

end ShellApp
