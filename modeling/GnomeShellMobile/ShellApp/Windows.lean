import GnomeShellMobile.Runs.Basic
import GnomeShellMobile.ShellApp.Compare

/-!
# ShellApp — the order of the windows

`shell_app_get_windows` of `src/shell-app.c`, and what marks the order it keeps as stale: a window that
is added, a workspace switch, and the user time of a window other than the first. Nothing marks it when
a window is minimised, shown again or moved to another workspace.

* **`State.rank`** — the order in force: the active workspace, the visible windows, the last user time.
* **`inOrder_update_iff`** — a window that changes leaves a list in order if and only if it keeps its
  place there.
* **`State.getWindows_correct`** — a call sorts what is stale, if the times it compares are close.
* **`run_answers`** — the headline: along a run in which each window that changes unnoticed keeps its
  place, no order is stale unmarked and each call gives the windows in the order in force.
-/

namespace ShellAppWindows

open ShellAppUsage (Preorders Sorts)

/-- What is asked of a `MetaWindow`. Without a workspace of its own it is on all of them. -/
structure Window where
  userTime : UInt32
  workspace : Option ℕ
  showingOnItsWorkspace : Bool
  isOverrideRedirect : Bool
deriving DecidableEq

structure RunningState where
  windows : List ℕ
  windowSortStale : Bool
deriving DecidableEq

structure State where
  window : ℕ → Window
  activeWorkspace : ℕ
  runningState : Option RunningState

namespace State

def new (window : ℕ → Window) (activeWorkspace : ℕ) : State where
  window := window
  activeWorkspace := activeWorkspace
  runningState := none

def windows (s : State) : List ℕ := s.runningState.elim [] (·.windows)

variable (s : State)

def onActiveWorkspace (window : Window) : Bool :=
  window.workspace.getD s.activeWorkspace == s.activeWorkspace

/-- `shell_app_compare_windows`. -/
def compareWindows (winA winB : ℕ) : ℤ :=
  let wsA := s.onActiveWorkspace (s.window winA)
  let wsB := s.onActiveWorkspace (s.window winB)
  if wsA && !wsB then -1
  else if !wsA && wsB then 1
  else
    let visA := (s.window winA).showingOnItsWorkspace
    let visB := (s.window winB).showingOnItsWorkspace
    if visA && !visB then -1
    else if !visA && visB then 1
    else ((s.window winB).userTime - (s.window winA).userTime).toInt32.toInt

/-- `shell_app_get_windows`: the list it keeps is sorted, and what it gives back is built in reverse. -/
def getWindows (sort : (ℕ → ℕ → ℤ) → List ℕ → List ℕ) (s : State) : State × List ℕ :=
  match s.runningState with
  | none => (s, [])
  | some r =>
    let r := if r.windowSortStale then ⟨sort s.compareWindows r.windows, false⟩ else r
    let windows := r.windows.foldl (fun windows window =>
      if ¬(s.window window).isOverrideRedirect then window :: windows else windows) []
    ({ s with runningState := some r }, windows.reverse)

/-- `_shell_app_add_window`. -/
def addWindow (window : ℕ) : State :=
  if window ∈ s.windows then s
  else { s with runningState := some ⟨window :: s.windows, true⟩ }

/-- `_shell_app_remove_window`. -/
def removeWindow (r : RunningState) (window : ℕ) : State :=
  if window ∉ r.windows then s
  else
    let windows := r.windows.erase window
    if windows = [] then { s with runningState := none }
    else { s with runningState := some { r with windows := windows } }

/-- `shell_app_on_user_time_changed`, of a window of the application. -/
def onUserTimeChanged (window : ℕ) : State :=
  if s.windows.head? ≠ some window then
    { s with runningState := s.runningState.map ({ · with windowSortStale := true }) }
  else s

/-- `shell_app_on_ws_switch`, which is connected as long as there is a running state. -/
def onWsSwitch : State :=
  { s with runningState := s.runningState.map ({ · with windowSortStale := true }) }

def setWindow (w : ℕ) (window : Window) : State :=
  { s with window := Function.update s.window w window }

/-- `notify::user-time`, which the application hears of if it has the window. -/
def setUserTime (w : ℕ) (time : UInt32) : State :=
  let s := s.setWindow w { s.window w with userTime := time }
  if w ∈ s.windows then s.onUserTimeChanged w else s

def switchWorkspace (workspace : ℕ) : State :=
  { s with activeWorkspace := workspace }.onWsSwitch

end State

inductive Event where
  | addWindow (w : ℕ)
  | removeWindow (w : ℕ)
  | setUserTime (w : ℕ) (time : UInt32)
  | switchWorkspace (workspace : ℕ)
  | setShowing (w : ℕ) (showing : Bool)
  | setWorkspace (w : ℕ) (workspace : Option ℕ)
  | getWindows
deriving DecidableEq

variable (sort : (ℕ → ℕ → ℤ) → List ℕ → List ℕ)

def step (s : State) : Event → Option State
  | .addWindow w => some (s.addWindow w)
  | .removeWindow w => s.runningState.map (s.removeWindow · w)
  | .setUserTime w time => some (s.setUserTime w time)
  | .switchWorkspace workspace => some (s.switchWorkspace workspace)
  | .setShowing w showing => some (s.setWindow w { s.window w with showingOnItsWorkspace := showing })
  | .setWorkspace w workspace => some (s.setWindow w { s.window w with workspace := workspace })
  | .getWindows => some (s.getWindows sort).1

/-! ## The order in force -/

namespace State

variable (s : State)

def rankOf (window : Window) : Bool ×ₗ Bool ×ₗ ℕᵒᵈ :=
  toLex (!s.onActiveWorkspace window,
    toLex (!window.showingOnItsWorkspace, OrderDual.toDual window.userTime.toNat))

def rank (w : ℕ) : Bool ×ₗ Bool ×ₗ ℕᵒᵈ := s.rankOf (s.window w)

def InOrder (l : List ℕ) : Prop := l.Pairwise fun a b => s.rank a ≤ s.rank b
deriving Decidable

def Fresh : Prop :=
  ∀ r ∈ s.runningState, r.windowSortStale = false → s.InOrder r.windows

structure Correct (answer : List ℕ) : Prop where
  perm : answer.Perm (s.windows.filter fun w => !(s.window w).isOverrideRedirect)
  inOrder : s.InOrder answer

end State

variable (s : State)

structure Answers (e : Event) (s' : State) : Prop where
  fresh : s'.Fresh
  correct : e = .getWindows → s.Correct (s.getWindows sort).2

/-- In an order that is not marked, the window that becomes `window` still comes after all that is
before it, and before all that is after it. -/
def KeepsPlace (w : ℕ) (window : Window) : Prop :=
  ∀ r ∈ s.runningState, r.windowSortStale = false → w ∈ r.windows →
    (∀ a ∈ r.windows.takeWhile (· ≠ w), s.rank a ≤ s.rankOf window) ∧
      ∀ b ∈ (r.windows.dropWhile (· ≠ w)).tail, s.rankOf window ≤ s.rank b

def Unnoticed : Event → Prop
  | .setUserTime w time =>
    s.windows.head? = some w → KeepsPlace s w { s.window w with userTime := time }
  | .setShowing w showing => KeepsPlace s w { s.window w with showingOnItsWorkspace := showing }
  | .setWorkspace w workspace => KeepsPlace s w { s.window w with workspace := workspace }
  | .addWindow _ | .removeWindow _ | .switchWorkspace _ | .getWindows => True

/-- A call that sorts compares no times that are `2^31` milliseconds apart or more. -/
def TimesClose : Event → Prop
  | .getWindows => ∀ r ∈ s.runningState, r.windowSortStale = true →
      ∀ a ∈ r.windows, ∀ b ∈ r.windows,
        s.onActiveWorkspace (s.window a) = s.onActiveWorkspace (s.window b) →
        (s.window a).showingOnItsWorkspace = (s.window b).showingOnItsWorkspace →
          (s.window b).userTime.toNat < (s.window a).userTime.toNat + 2 ^ 31
  | _ => True

/-! ## Sorting -/

variable {sort} {s s' : State} {r : RunningState} {w : ℕ}

theorem State.rank_lt_iff (a b : ℕ) : s.rank a < s.rank b ↔
    (!s.onActiveWorkspace (s.window a)) < (!s.onActiveWorkspace (s.window b)) ∨
      (!s.onActiveWorkspace (s.window a)) = (!s.onActiveWorkspace (s.window b)) ∧
        ((!(s.window a).showingOnItsWorkspace) < (!(s.window b).showingOnItsWorkspace) ∨
          (!(s.window a).showingOnItsWorkspace) = (!(s.window b).showingOnItsWorkspace) ∧
            (s.window b).userTime.toNat < (s.window a).userTime.toNat) := by
  simp only [State.rank, State.rankOf, Prod.Lex.toLex_lt_toLex, OrderDual.toDual_lt_toDual]

theorem userTime_sub (a b : UInt32) : (a - b).toInt32.toInt = ShellAppCompare.subTimes a b := by
  rw [UInt32.toInt32_sub, ShellAppCompare.subTimes]

theorem State.compareWindows_sign (a b : ℕ)
    (hclose : s.onActiveWorkspace (s.window a) = s.onActiveWorkspace (s.window b) →
      (s.window a).showingOnItsWorkspace = (s.window b).showingOnItsWorkspace →
        (s.window b).userTime.toNat < (s.window a).userTime.toNat + 2 ^ 31 ∧
          (s.window a).userTime.toNat < (s.window b).userTime.toNat + 2 ^ 31) :
    (s.compareWindows a b < 0 ↔ s.rank a < s.rank b) ∧
      (0 < s.compareWindows a b ↔ s.rank b < s.rank a) := by
  rw [State.rank_lt_iff, State.rank_lt_iff]
  unfold State.compareWindows
  by_cases hws : s.onActiveWorkspace (s.window a) = s.onActiveWorkspace (s.window b)
  · by_cases hvis : (s.window a).showingOnItsWorkspace = (s.window b).showingOnItsWorkspace
    · -- only the times are left to compare
      obtain ⟨hlow, hhigh⟩ := hclose hws hvis
      obtain ⟨hneg, hpos⟩ := ShellAppCompare.subTimes_sign hhigh hlow
      rw [← hneg, ← hpos, userTime_sub]
      simp [hws, hvis]
    · rw [hws]
      cases hva : (s.window a).showingOnItsWorkspace <;>
        cases hvb : (s.window b).showingOnItsWorkspace <;> simp_all
  · cases hwa : s.onActiveWorkspace (s.window a) <;>
      cases hwb : s.onActiveWorkspace (s.window b) <;> simp_all

theorem State.inOrder_sort (hsort : Sorts sort) {l : List ℕ} (hclose : ∀ a ∈ l, ∀ b ∈ l,
      s.onActiveWorkspace (s.window a) = s.onActiveWorkspace (s.window b) →
      (s.window a).showingOnItsWorkspace = (s.window b).showingOnItsWorkspace →
        (s.window b).userTime.toNat < (s.window a).userTime.toNat + 2 ^ 31) :
    (sort s.compareWindows l).Perm l ∧ s.InOrder (sort s.compareWindows l) := by
  have hle : ∀ a ∈ l, ∀ b ∈ l, s.compareWindows a b ≤ 0 ↔ s.rank a ≤ s.rank b := by
    intro a ha b hb
    rw [← not_lt, ← not_lt, (State.compareWindows_sign a b fun hws hvis =>
      ⟨hclose a ha b hb hws hvis, hclose b hb a ha hws.symm hvis.symm⟩).2]
  obtain ⟨hperm, hpairwise⟩ := hsort s.compareWindows l
    (fun a ha b hb => by
      rw [hle a ha b hb, hle b hb a ha]
      exact le_total _ _)
    (fun a ha b hb c hc hab hbc => by
      rw [hle a ha b hb] at hab
      rw [hle b hb c hc] at hbc
      rw [hle a ha c hc]
      exact hab.trans hbc)
  refine ⟨hperm, hpairwise.imp_of_mem fun {a b} ha hb hab => ?_⟩
  exact (hle a (hperm.mem_iff.mp ha) b (hperm.mem_iff.mp hb)).mp hab

theorem foldl_overrideRedirect (s : State) (l windows : List ℕ) : l.foldl (fun windows window =>
        if ¬(s.window window).isOverrideRedirect then window :: windows else windows) windows =
      (l.filter fun w => !(s.window w).isOverrideRedirect).reverse ++ windows := by
  induction l generalizing windows with
  | nil => rfl
  | cons w l ih =>
    rw [List.foldl_cons, ih]
    cases h : (s.window w).isOverrideRedirect with
    | true => simp [h]
    | false => simp [h]

theorem getWindows_of_none (h : s.runningState = none) : s.getWindows sort = (s, []) := by
  rw [State.getWindows, h]

theorem getWindows_of_some (h : s.runningState = some r) : s.getWindows sort =
      ({ s with runningState := some (if r.windowSortStale then
          ⟨sort s.compareWindows r.windows, false⟩ else r) },
        (if r.windowSortStale then sort s.compareWindows r.windows else r.windows).filter
          fun w => !(s.window w).isOverrideRedirect) := by
  rw [State.getWindows, h]
  dsimp only
  rw [foldl_overrideRedirect, List.append_nil, List.reverse_reverse]
  cases r.windowSortStale <;> rfl

theorem split_at_mem {l : List ℕ} (hmem : w ∈ l) :
    ∃ before after, l = before ++ w :: after ∧ w ∉ before ∧
      l.takeWhile (· ≠ w) = before ∧ (l.dropWhile (· ≠ w)).tail = after := by
  obtain ⟨before, after, rfl, hnot⟩ := List.eq_append_cons_of_mem hmem
  have hall : ∀ a ∈ before, (fun a => decide (a ≠ w)) a = true := by
    intro a ha
    exact decide_eq_true fun h => hnot (h ▸ ha)
  refine ⟨before, after, rfl, hnot, ?_, ?_⟩
  · rw [List.takeWhile_append_of_pos hall]
    simp
  · rw [List.dropWhile_append_of_pos hall]
    simp

theorem State.inOrder_setWindow_iff {l : List ℕ} {window : Window} (hnodup : l.Nodup)
    (horder : s.InOrder l) : (s.setWindow w window).InOrder l ↔ (w ∈ l →
      (∀ a ∈ l.takeWhile (· ≠ w), s.rank a ≤ s.rankOf window) ∧
        ∀ b ∈ (l.dropWhile (· ≠ w)).tail, s.rankOf window ≤ s.rank b) := by
  have hself : (s.setWindow w window).rank w = s.rankOf window := by
    simp [State.rank, State.setWindow, State.rankOf, State.onActiveWorkspace]
  have hother : ∀ a, a ≠ w → (s.setWindow w window).rank a = s.rank a := by
    intro a ha
    simp [State.rank, State.setWindow, State.rankOf, State.onActiveWorkspace, ha]
  -- a list without the window is in order as before
  have hrest : ∀ l' : List ℕ, w ∉ l' → ((s.setWindow w window).InOrder l' ↔ s.InOrder l') := by
    intro l' hnot
    apply List.Pairwise.iff_of_mem
    intro a b ha hb
    rw [hother a fun h => hnot (h ▸ ha), hother b fun h => hnot (h ▸ hb)]
  by_cases hmem : w ∈ l
  · obtain ⟨before, after, hl, hbefore, htake, hdrop⟩ := split_at_mem hmem
    rw [htake, hdrop]
    subst hl
    have hafter : w ∉ after := (List.nodup_cons.mp (List.nodup_append.mp hnodup).2.1).1
    unfold State.InOrder at horder hrest ⊢
    rw [List.pairwise_append, List.pairwise_cons] at horder ⊢
    obtain ⟨hb, ⟨_, ha⟩, hba⟩ := horder
    constructor
    · rintro ⟨_, ⟨hhead, _⟩, hacross⟩ _
      constructor
      · intro a hmema
        have := hacross a hmema w List.mem_cons_self
        rwa [hself, hother a fun h => hbefore (h ▸ hmema)] at this
      · intro b hmemb
        have := hhead b hmemb
        rwa [hself, hother b fun h => hafter (h ▸ hmemb)] at this
    · intro hplace
      obtain ⟨hfirst, hsecond⟩ := hplace hmem
      refine ⟨(hrest before hbefore).mpr hb, ⟨?_, (hrest after hafter).mpr ha⟩, ?_⟩
      · intro b hmemb
        rw [hself, hother b fun h => hafter (h ▸ hmemb)]
        exact hsecond b hmemb
      · intro a hmema b hmemb
        have hane : a ≠ w := fun h => hbefore (h ▸ hmema)
        rcases List.mem_cons.mp hmemb with rfl | hmemb'
        · rw [hself, hother a hane]
          exact hfirst a hmema
        · rw [hother a hane, hother b fun h => hafter (h ▸ hmemb')]
          exact hba a hmema b hmemb
  · rw [hrest l hmem]
    exact ⟨fun _ h => absurd h hmem, fun _ => horder⟩

/-! ## Each step -/

theorem State.windows_of_some (h : s.runningState = some r) : s.windows = r.windows := by
  rw [State.windows, h]
  rfl

theorem fresh_setWindow_iff {window : Window} (hnodup : s.windows.Nodup) (hfresh : s.Fresh) :
    (s.setWindow w window).Fresh ↔ KeepsPlace s w window := by
  unfold State.Fresh KeepsPlace
  constructor
  · intro h r hr hstale
    have hnodup' : r.windows.Nodup := State.windows_of_some hr ▸ hnodup
    exact (State.inOrder_setWindow_iff hnodup' (hfresh r hr hstale)).mp (h r hr hstale)
  · intro h r hr hstale
    have hnodup' : r.windows.Nodup := State.windows_of_some hr ▸ hnodup
    exact (State.inOrder_setWindow_iff hnodup' (hfresh r hr hstale)).mpr (h r hr hstale)

theorem fresh_new (window : ℕ → Window) (activeWorkspace : ℕ) :
    (State.new window activeWorkspace).Fresh := by
  intro r hr
  cases hr

theorem windows_of_marked
    (h : s'.runningState = s.runningState.map ({ · with windowSortStale := true })) :
    s'.windows = s.windows := by
  rw [State.windows, State.windows, h]
  cases s.runningState <;> rfl

theorem fresh_of_marked
    (h : s'.runningState = s.runningState.map ({ · with windowSortStale := true })) : s'.Fresh := by
  intro r' hr' hstale
  rw [h] at hr'
  obtain ⟨r, _, rfl⟩ := Option.map_eq_some_iff.mp hr'
  cases hstale

theorem fresh_addWindow (hfresh : s.Fresh) : (s.addWindow w).Fresh := by
  unfold State.addWindow
  split
  · exact hfresh
  · intro r' hr' hstale
    cases hr'
    cases hstale

theorem fresh_removeWindow (hr : s.runningState = some r) (hfresh : s.Fresh) :
    (s.removeWindow r w).Fresh := by
  unfold State.removeWindow
  split
  · exact hfresh
  · dsimp only
    split
    · intro r' hr'
      cases hr'
    · intro r' hr' hstale
      cases hr'
      -- what is left of the list is in order
      exact (hfresh r hr hstale).sublist List.erase_sublist

theorem fresh_setUserTime_iff {time : UInt32} (hnodup : s.windows.Nodup) (hfresh : s.Fresh) :
    (s.setUserTime w time).Fresh ↔
      (s.windows.head? = some w → KeepsPlace s w { s.window w with userTime := time }) := by
  have hwindows : (s.setWindow w { s.window w with userTime := time }).windows = s.windows := rfl
  unfold State.setUserTime State.onUserTimeChanged
  dsimp only
  rw [hwindows]
  by_cases hhead : s.windows.head? = some w
  · have hmem : w ∈ s.windows := List.mem_of_mem_head? hhead
    rw [if_pos hmem, if_neg (not_not.mpr hhead), fresh_setWindow_iff hnodup hfresh]
    exact ⟨fun h _ => h, fun h => h hhead⟩
  · refine ⟨fun _ h => absurd h hhead, fun _ => ?_⟩
    by_cases hmem : w ∈ s.windows
    · rw [if_pos hmem, if_pos hhead]
      exact fresh_of_marked rfl
    · rw [if_neg hmem, fresh_setWindow_iff hnodup hfresh]
      intro r hr _ hmemr
      exact absurd (State.windows_of_some hr ▸ hmemr) hmem

theorem getWindows_inOrder (hsort : Sorts sort) (hfresh : s.Fresh) (hclose : TimesClose s .getWindows) :
    (s.getWindows sort).1.Fresh ∧ (s.getWindows sort).1.windows.Perm s.windows ∧
      s.Correct (s.getWindows sort).2 := by
  cases hr : s.runningState with
  | none =>
    have hnone : s.windows = [] := by
      rw [State.windows, hr]
      rfl
    rw [getWindows_of_none hr]
    exact ⟨hfresh, .rfl, ⟨by rw [hnone]; exact .nil, .nil⟩⟩
  | some r =>
    rw [getWindows_of_some hr]
    have hwindows := State.windows_of_some hr
    cases hstale : r.windowSortStale with
    | true =>
      obtain ⟨hperm, horder⟩ := State.inOrder_sort hsort (s := s) (l := r.windows)
        (hclose r hr hstale)
      refine ⟨?_, ?_, ⟨?_, ?_⟩⟩
      · intro r' hr' _
        cases hr'
        exact horder
      · rw [hwindows]
        exact hperm
      · rw [hwindows]
        exact hperm.filter _
      · exact horder.sublist List.filter_sublist
    | false =>
      have horder := hfresh r hr hstale
      refine ⟨?_, ?_, ⟨?_, ?_⟩⟩
      · intro r' hr' _
        cases hr'
        exact horder
      · rw [hwindows]
        exact .rfl
      · rw [hwindows]
        exact .rfl
      · exact horder.sublist List.filter_sublist

theorem step_nodup {e : Event} (hsort : Sorts sort) (hnodup : s.windows.Nodup) (hfresh : s.Fresh)
    (hclose : TimesClose s e) (hstep : step sort s e = some s') : s'.windows.Nodup := by
  cases e with
  | addWindow w =>
    cases hstep
    unfold State.addWindow
    split
    · exact hnodup
    · next hnot => exact List.nodup_cons.mpr ⟨hnot, hnodup⟩
  | removeWindow w =>
    obtain ⟨r, hr, rfl⟩ := Option.map_eq_some_iff.mp hstep
    rw [State.windows_of_some hr] at hnodup
    unfold State.removeWindow
    dsimp only
    split
    · rw [State.windows_of_some hr]
      exact hnodup
    · split
      · exact List.nodup_nil
      · exact hnodup.erase w
  | setUserTime w time =>
    cases hstep
    have hwindows : (s.setUserTime w time).windows = s.windows := by
      unfold State.setUserTime State.onUserTimeChanged
      dsimp only
      split
      · split
        · exact windows_of_marked rfl
        · rfl
      · rfl
    rw [hwindows]
    exact hnodup
  | switchWorkspace workspace =>
    cases hstep
    have hwindows : (s.switchWorkspace workspace).windows = s.windows := windows_of_marked rfl
    rw [hwindows]
    exact hnodup
  | setShowing w showing =>
    cases hstep
    exact hnodup
  | setWorkspace w workspace =>
    cases hstep
    exact hnodup
  | getWindows =>
    cases hstep
    exact (getWindows_inOrder hsort hfresh hclose).2.1.nodup_iff.mpr hnodup

/-- **What a step does.** The order is stale unmarked after it only if a window left its place
unnoticed. The cases are the events. -/
theorem step_answers_iff {e : Event} (hsort : Sorts sort) (hnodup : s.windows.Nodup)
    (hfresh : s.Fresh) (hclose : TimesClose s e) (hstep : step sort s e = some s') :
    Answers sort s e s' ↔ Unnoticed s e := by
  have hiff : e ≠ .getWindows → (Answers sort s e s' ↔ s'.Fresh) := by
    intro hne
    exact ⟨fun h => h.fresh, fun h => ⟨h, fun he => absurd he hne⟩⟩
  cases e with
  | addWindow w =>
    cases hstep
    rw [hiff Event.noConfusion]
    exact ⟨fun _ => trivial, fun _ => fresh_addWindow hfresh⟩
  | removeWindow w =>
    obtain ⟨r, hr, rfl⟩ := Option.map_eq_some_iff.mp hstep
    rw [hiff Event.noConfusion]
    exact ⟨fun _ => trivial, fun _ => fresh_removeWindow hr hfresh⟩
  | setUserTime w time =>
    cases hstep
    rw [hiff Event.noConfusion, fresh_setUserTime_iff hnodup hfresh, Unnoticed]
  | switchWorkspace workspace =>
    cases hstep
    rw [hiff Event.noConfusion]
    exact ⟨fun _ => trivial, fun _ => fresh_of_marked rfl⟩
  | setShowing w showing =>
    cases hstep
    rw [hiff Event.noConfusion, fresh_setWindow_iff hnodup hfresh, Unnoticed]
  | setWorkspace w workspace =>
    cases hstep
    rw [hiff Event.noConfusion, fresh_setWindow_iff hnodup hfresh, Unnoticed]
  | getWindows =>
    cases hstep
    obtain ⟨hfresh', -, hcorrect⟩ := getWindows_inOrder hsort hfresh hclose
    exact ⟨fun _ => trivial, fun _ => ⟨hfresh', fun _ => hcorrect⟩⟩

/-- **The order of the windows along a run** whose calls compare no times that are far apart. It is
never stale unmarked, and each call gives the windows in the order in force, if and only if what
changes unnoticed keeps its place. -/
theorem run_answers_iff (hsort : Sorts sort) {window : ℕ → Window} {activeWorkspace : ℕ}
    {es : List Event} {t : State} (hrun : Runs.run (step sort) (.new window activeWorkspace) es = some t)
    (hclose : Runs.Allowed (step sort) TimesClose (.new window activeWorkspace) es) :
    Runs.Along (step sort) (Answers sort) (.new window activeWorkspace) es ↔
      Runs.Allowed (step sort) Unnoticed (.new window activeWorkspace) es := by
  refine Runs.along_iff_allowed_of_side (I := fun s => s.windows.Nodup ∧ s.Fresh)
    ⟨List.nodup_nil, fresh_new window activeWorkspace⟩ ?_ ?_ hrun hclose
  · rintro u e v ⟨hnodup, hfresh⟩ hside hstep hanswers
    exact ⟨step_nodup hsort hnodup hfresh hside hstep, hanswers.fresh⟩
  · rintro u e v ⟨hnodup, hfresh⟩ hside hstep
    exact step_answers_iff hsort hnodup hfresh hside hstep

instance (s : State) (w : ℕ) (window : Window) : Decidable (KeepsPlace s w window) := by
  unfold KeepsPlace
  infer_instance

instance (s : State) (e : Event) : Decidable (Unnoticed s e) := by
  unfold Unnoticed
  split <;> infer_instance

instance (s : State) (e : Event) : Decidable (TimesClose s e) := by
  unfold TimesClose
  split <;> infer_instance

def insertionSort (cmp : ℕ → ℕ → ℤ) (l : List ℕ) : List ℕ := l.insertionSort fun a b => cmp a b ≤ 0

theorem sorts_insertionSort : Sorts insertionSort := by
  intro cmp l htotal htrans
  refine ⟨List.perm_insertionSort _ _, ?_⟩
  have : Std.Total fun a b : { a // a ∈ l } => cmp a b ≤ 0 := ⟨fun a b => htotal a a.2 b b.2⟩
  have : IsTrans { a // a ∈ l } fun a b => cmp a b ≤ 0 :=
    ⟨fun a b c hab hbc => htrans a a.2 b b.2 c c.2 hab hbc⟩
  have hsorted := List.pairwise_insertionSort (fun a b : { a // a ∈ l } => cmp a b ≤ 0) l.attach
  have hmap := List.map_insertionSort (fun a b : { a // a ∈ l } => cmp a b ≤ 0)
    (fun a b => cmp a b ≤ 0) Subtype.val l.attach fun a _ b _ => Iff.rfl
  rw [List.attach_map_subtype_val] at hmap
  rw [insertionSort, ← hmap, List.pairwise_map]
  exact hsorted

def used : ℕ → Window := fun w => ⟨w.toUInt32, some 0, true, false⟩

def minimisedLater : List Event :=
  [.addWindow 1, .addWindow 2, .getWindows, .setUserTime 2 9, .setUserTime 1 12, .setShowing 2 false,
    .getWindows, .setWorkspace 2 (some 1), .switchWorkspace 1, .getWindows, .removeWindow 1]

theorem run_answers_iff_minimisedLater : ∃ sort, Sorts sort ∧
    ∃ t, Runs.run (step sort) (.new used 0) minimisedLater = some t ∧
      Runs.Along (step sort) (Answers sort) (.new used 0) minimisedLater := by
  obtain ⟨t, hrun⟩ : ∃ t, Runs.run (step insertionSort) (.new used 0) minimisedLater = some t :=
    Option.isSome_iff_exists.mp (by decide)
  refine ⟨_, sorts_insertionSort, t, hrun, ?_⟩
  exact (run_answers_iff sorts_insertionSort hrun (by decide)).mpr (by decide)

def minimised : List Event := [.addWindow 1, .addWindow 2, .getWindows, .setShowing 2 false]

/-- The minimised window comes first. -/
theorem not_answers_minimised : ∃ sort, Sorts sort ∧
    ∃ t, Runs.run (step sort) (.new used 0) minimised = some t ∧
      Runs.Allowed (step sort) TimesClose (.new used 0) minimised ∧
      ¬t.Fresh ∧ ¬t.Correct (t.getWindows sort).2 := by
  refine ⟨insertionSort, sorts_insertionSort, _, rfl, by decide, ?_, ?_⟩
  · intro hfresh
    exact absurd (hfresh _ rfl rfl) (by decide)
  · intro hcorrect
    exact absurd hcorrect.inOrder (by decide)

end ShellAppWindows
