import GnomeShellMobile.ShellApp.MostUsed
import Mathlib.Data.Prod.Lex

/-!
# ShellApp — which application comes first

`shell_app_compare` of `src/shell-app.c`, with the minimised state and the last user time it reads.
The times are `guint32`, their difference is taken as an `int` and wraps around.

* **`subTimes_neg_iff`** — a difference of times has the right sign on both sides if and only if the
  times are less than `2^31` apart.
* **`compare_of_states`** — two applications that are not running, in different states: each comes
  after the other.
* **`orders_iff`** — the headline: the applications of a set are ordered as documented if and only if
  neither of the two happens among them.
-/

namespace ShellAppCompare

open ShellAppUsage (Preorders)

inductive ShellAppState where
  | stopped
  | starting
  | running
deriving DecidableEq

/-- What the comparison asks of a `MetaWindow`. -/
structure Window where
  userTime : UInt32
  showingOnItsWorkspace : Bool
deriving DecidableEq

/-- A `ShellApp`, with the windows of its running state if it has one. A running application has. -/
structure App where
  state : ShellAppState
  runningState : Option (List Window)
  running : state = .running → runningState.isSome := by decide

namespace App

def windows (app : App) : List Window := app.runningState.getD []

/-- `shell_app_get_last_user_time`, before it becomes an `int`. -/
def lastUserTime (app : App) : UInt32 :=
  app.windows.foldl (fun lastUserTime window => max lastUserTime window.userTime) 0

def isMinimized (app : App) : Bool :=
  match app.runningState with
  | none => false
  | some windows => windows.all fun window => !window.showingOnItsWorkspace

end App

def subTimes (other app : UInt32) : ℤ := (other.toInt32 - app.toInt32).toInt

def compare (app other : App) : ℤ :=
  if app.state ≠ other.state then
    if app.state = .running then -1 else 1
  else if app.isMinimized ≠ other.isMinimized then
    if other.isMinimized then -1 else 1
  else if app.state = .running then
    if app.windows ≠ [] ∧ other.windows = [] then -1
    else if app.windows = [] ∧ other.windows ≠ [] then 1
    else subTimes other.lastUserTime app.lastUserTime
  else 0

/-! ## What is meant to hold -/

inductive Before (app other : App) : Prop where
  | running (ha : app.state = .running) (ho : other.state ≠ .running)
  | visible (ha : app.state = .running) (ho : other.state = .running)
      (hshown : ∃ window ∈ app.windows, window.showingOnItsWorkspace)
      (hhidden : ∀ window ∈ other.windows, ¬window.showingOnItsWorkspace)
  | recent (ha : app.state = .running) (ho : other.state = .running)
      (hsame : (∃ window ∈ app.windows, window.showingOnItsWorkspace) ↔
        ∃ window ∈ other.windows, window.showingOnItsWorkspace)
      (hlater : other.lastUserTime < app.lastUserTime)

/-- The applications of `S` are ordered, and as documented. -/
structure Orders (S : Set App) : Prop where
  preorders : Preorders fun app other : S => compare app other
  documented : ∀ app ∈ S, ∀ other ∈ S, Before app other → compare app other < 0

structure ComparesTimes (app other : App) : Prop where
  running : app.state = .running
  other_running : other.state = .running
  minimized : app.isMinimized = other.isMinimized
  windows : app.windows ≠ []
  other_windows : other.windows ≠ []

/-- The times that are compared are less than `2^31` milliseconds apart. -/
def TimesClose (S : Set App) : Prop :=
  ∀ app ∈ S, ∀ other ∈ S, ComparesTimes app other →
    other.lastUserTime.toNat < app.lastUserTime.toNat + 2 ^ 31

/-- No application of `S` is stopped while another one is starting. -/
def NotBoth (S : Set App) : Prop :=
  ∀ app ∈ S, ∀ other ∈ S, ¬(app.state = .stopped ∧ other.state = .starting)

/-! ## Differences of times -/

theorem toInt_toInt32 (time : UInt32) : time.toInt32.toInt = (time.toNat : ℤ).bmod (2 ^ 32) :=
  BitVec.toInt_eq_toNat_bmod time.toBitVec

theorem subTimes_eq_bmod (other app : UInt32) :
    subTimes other app = ((other.toNat : ℤ) - app.toNat).bmod (2 ^ 32) := by
  rw [subTimes, Int32.toInt_sub, toInt_toInt32, toInt_toInt32, Int.bmod_sub_bmod, Int.sub_bmod_bmod]

theorem subTimes_of_close {other app : UInt32} (hlow : app.toNat < other.toNat + 2 ^ 31)
    (hhigh : other.toNat < app.toNat + 2 ^ 31) :
    subTimes other app = (other.toNat : ℤ) - app.toNat := by
  rw [subTimes_eq_bmod]
  apply Int.bmod_eq_of_le <;> omega

theorem subTimes_sign {other app : UInt32} (hlow : app.toNat < other.toNat + 2 ^ 31)
    (hhigh : other.toNat < app.toNat + 2 ^ 31) :
    (subTimes other app < 0 ↔ other.toNat < app.toNat) ∧
      (0 < subTimes other app ↔ app.toNat < other.toNat) := by
  rw [subTimes_of_close hlow hhigh]
  omega

theorem subTimes_of_far {other app : UInt32} (hfar : other.toNat + 2 ^ 31 ≤ app.toNat) :
    0 < subTimes other app ∨ subTimes other app < 0 ∧ subTimes app other < 0 := by
  have happ : app.toNat < 2 ^ 32 := app.toNat_lt
  rw [subTimes_eq_bmod, subTimes_eq_bmod]
  rcases Nat.lt_or_eq_of_le hfar with hlt | heq
  · left
    rw [← Int.add_mul_bmod_self_left _ (2 ^ 32) 1, Int.bmod_eq_of_le (by omega) (by omega)]
    omega
  · right
    have hneg : (other.toNat : ℤ) - app.toNat = -(2 ^ 31) := by omega
    have hpos : (app.toNat : ℤ) - other.toNat = 2 ^ 31 := by omega
    rw [hneg, hpos]
    decide

/-! ## The rank -/

def App.rank (app : App) : Bool ×ₗ Bool ×ₗ Bool ×ₗ ℕᵒᵈ :=
  toLex (decide (app.state ≠ .running), toLex (app.isMinimized,
    toLex (decide (app.state = .running ∧ app.windows = []),
      OrderDual.toDual (if app.state = .running then app.lastUserTime.toNat else 0))))

variable {S : Set App} {app other : App}

theorem App.lastUserTime_of_no_windows (h : app.windows = []) : app.lastUserTime.toNat = 0 := by
  rw [App.lastUserTime, h]
  rfl

theorem rank_lt_iff : app.rank < other.rank ↔
    decide (app.state ≠ .running) < decide (other.state ≠ .running) ∨
      decide (app.state ≠ .running) = decide (other.state ≠ .running) ∧
        (app.isMinimized < other.isMinimized ∨ app.isMinimized = other.isMinimized ∧
          (decide (app.state = .running ∧ app.windows = []) <
              decide (other.state = .running ∧ other.windows = []) ∨
            decide (app.state = .running ∧ app.windows = []) =
                decide (other.state = .running ∧ other.windows = []) ∧
              (if other.state = .running then other.lastUserTime.toNat else 0) <
                if app.state = .running then app.lastUserTime.toNat else 0)) := by
  simp only [App.rank, Prod.Lex.toLex_lt_toLex, OrderDual.toDual_lt_toDual]

theorem compare_of_states (hstate : app.state ≠ other.state) (hrunning : app.state ≠ .running) :
    compare app other = 1 := by
  rw [compare, if_pos hstate, if_neg hrunning]

theorem compare_of_running_first (ha : app.state = .running) (ho : other.state ≠ .running) :
    compare app other = -1 := by
  rw [compare, if_pos fun h => ho (h.symm.trans ha), if_pos ha]

theorem compare_of_minimized (hstate : app.state = other.state)
    (hmin : app.isMinimized ≠ other.isMinimized) :
    compare app other = if other.isMinimized then -1 else 1 := by
  rw [compare, if_neg (not_not.mpr hstate), if_pos hmin]

theorem compare_of_idle (hstate : app.state = other.state) (ha : app.state ≠ .running)
    (hmin : app.isMinimized = other.isMinimized) : compare app other = 0 := by
  rw [compare, if_neg (not_not.mpr hstate), if_neg (not_not.mpr hmin), if_neg ha]

theorem compare_of_running (ha : app.state = .running) (ho : other.state = .running)
    (hmin : app.isMinimized = other.isMinimized) : compare app other =
      if app.windows ≠ [] ∧ other.windows = [] then -1
      else if app.windows = [] ∧ other.windows ≠ [] then 1
      else subTimes other.lastUserTime app.lastUserTime := by
  rw [compare, if_neg (not_not.mpr (ha.trans ho.symm)), if_neg (not_not.mpr hmin), if_pos ha]

theorem compare_sign_of_running (ha : app.state = .running) (ho : other.state = .running)
    (hmin : app.isMinimized = other.isMinimized) (hclose : app.windows ≠ [] → other.windows ≠ [] →
      other.lastUserTime.toNat < app.lastUserTime.toNat + 2 ^ 31 ∧
        app.lastUserTime.toNat < other.lastUserTime.toNat + 2 ^ 31) :
    (compare app other < 0 ↔ app.rank < other.rank) ∧
      (0 < compare app other ↔ other.rank < app.rank) := by
  rw [compare_of_running ha ho hmin, rank_lt_iff, rank_lt_iff, if_pos ha, if_pos ho, hmin]
  by_cases hwa : app.windows = []
  · by_cases hwo : other.windows = []
    · have hsub : subTimes other.lastUserTime app.lastUserTime = 0 := by
        rw [subTimes_eq_bmod, App.lastUserTime_of_no_windows hwa,
          App.lastUserTime_of_no_windows hwo]
        rfl
      simp [ha, ho, hwa, hwo, hsub, App.lastUserTime_of_no_windows]
    · simp [ha, ho, hwa, hwo]
  · by_cases hwo : other.windows = []
    · simp [ha, ho, hwa, hwo]
    · obtain ⟨hlow, hhigh⟩ := hclose hwa hwo
      obtain ⟨hneg, hpos⟩ := subTimes_sign hhigh hlow
      simp [ha, ho, hwa, hwo, hneg, hpos]

/-- **The comparison is that of the ranks** where neither of the two happens. The cases are those of
the source. -/
theorem compare_sign
    (hstates : app.state ≠ other.state → app.state = .running ∨ other.state = .running)
    (hclose : ComparesTimes app other →
      other.lastUserTime.toNat < app.lastUserTime.toNat + 2 ^ 31 ∧
        app.lastUserTime.toNat < other.lastUserTime.toNat + 2 ^ 31) :
    (compare app other < 0 ↔ app.rank < other.rank) ∧
      (0 < compare app other ↔ other.rank < app.rank) := by
  by_cases hstate : app.state = other.state
  · by_cases hmin : app.isMinimized = other.isMinimized
    · by_cases ha : app.state = .running
      · have ho : other.state = .running := hstate ▸ ha
        exact compare_sign_of_running ha ho hmin fun hwa hwo => hclose ⟨ha, ho, hmin, hwa, hwo⟩
      · have ho : other.state ≠ .running := hstate ▸ ha
        rw [compare_of_idle hstate ha hmin, rank_lt_iff, rank_lt_iff, hmin]
        simp [ha, ho]
    · rw [compare_of_minimized hstate hmin, rank_lt_iff, rank_lt_iff, hstate]
      cases ha : app.isMinimized <;> cases ho : other.isMinimized <;> simp_all
  · rcases hstates hstate with ha | ho
    · have ho : other.state ≠ .running := fun h => hstate (ha.trans h.symm)
      rw [compare_of_running_first ha ho, rank_lt_iff, rank_lt_iff]
      simp [ha, ho]
    · have ha : app.state ≠ .running := fun h => hstate (h.trans ho.symm)
      rw [compare_of_states hstate ha, rank_lt_iff, rank_lt_iff]
      simp [ha, ho]

/-! ## Exactly when -/

theorem App.isMinimized_eq_false (ha : app.state = .running) :
    app.isMinimized = false ↔ ∃ window ∈ app.windows, window.showingOnItsWorkspace := by
  obtain ⟨windows, hwindows⟩ := Option.isSome_iff_exists.mp (app.running ha)
  simp [App.isMinimized, App.windows, hwindows]

theorem Before.rank_lt (h : Before app other) : app.rank < other.rank := by
  rw [rank_lt_iff]
  cases h with
  | running ha ho => simp [ha, ho]
  | visible ha ho hshown hhidden =>
    have hmin := (App.isMinimized_eq_false ha).mpr hshown
    have hmin' : other.isMinimized = true := by
      rw [← Bool.not_eq_false, App.isMinimized_eq_false ho]
      rintro ⟨window, hmem, hshowing⟩
      exact hhidden window hmem hshowing
    simp [ha, ho, hmin, hmin']
  | recent ha ho hsame hlater =>
    have hmin : app.isMinimized = other.isMinimized := by
      rw [← App.isMinimized_eq_false ha, ← App.isMinimized_eq_false ho] at hsame
      cases hma : app.isMinimized <;> cases hmo : other.isMinimized <;> simp_all
    have hlater : other.lastUserTime.toNat < app.lastUserTime.toNat := hlater
    have hwa : app.windows ≠ [] := by
      intro hnone
      rw [App.lastUserTime_of_no_windows hnone] at hlater
      exact Nat.not_lt_zero _ hlater
    by_cases hwo : other.windows = []
    · simp [ha, ho, hmin, hwa, hwo]
    · simp [ha, ho, hmin, hwa, hwo, hlater]

theorem Orders.of_close (hstates : NotBoth S) (hclose : TimesClose S) : Orders S := by
  have hsign : ∀ app ∈ S, ∀ other ∈ S, (compare app other < 0 ↔ app.rank < other.rank) ∧
      (0 < compare app other ↔ other.rank < app.rank) := by
    intro app happ other hother
    apply compare_sign
    · -- of three states two are not `running`, and these are not both in `S`
      intro hne
      have hone := hstates app happ other hother
      have htwo := hstates other hother app happ
      cases ha : app.state <;> cases ho : other.state <;> simp_all
    · intro htimes
      exact ⟨hclose app happ other hother htimes, hclose other hother app happ ⟨htimes.other_running,
        htimes.running, htimes.minimized.symm, htimes.other_windows, htimes.windows⟩⟩
  constructor
  · exact .of_rank (fun app : S => app.1.rank) fun app other =>
      hsign app app.2 other other.2
  · intro app happ other hother hbefore
    exact (hsign app happ other hother).1.mpr hbefore.rank_lt

theorem Orders.notBoth (h : Orders S) : NotBoth S := by
  rintro app happ other hother ⟨hstopped, hstarting⟩
  have hone : compare app other = 1 :=
    compare_of_states (by rw [hstopped, hstarting]; decide) (by rw [hstopped]; decide)
  have htwo : compare other app = 1 :=
    compare_of_states (by rw [hstopped, hstarting]; decide) (by rw [hstarting]; decide)
  have hstrict : compare other app < 0 ↔ 0 < compare app other :=
    h.preorders.strict ⟨other, hother⟩ ⟨app, happ⟩
  rw [hone, htwo] at hstrict
  exact absurd (hstrict.mpr one_pos) (by decide)

theorem Orders.timesClose (h : Orders S) : TimesClose S := by
  intro app happ other hother htimes
  by_contra hfar
  rw [not_lt] at hfar
  have hone : compare app other = subTimes other.lastUserTime app.lastUserTime := by
    rw [compare_of_running htimes.running htimes.other_running htimes.minimized,
      if_neg fun hw => htimes.other_windows hw.2, if_neg fun hw => htimes.windows hw.1]
  have htwo : compare other app = subTimes app.lastUserTime other.lastUserTime := by
    rw [compare_of_running htimes.other_running htimes.running htimes.minimized.symm,
      if_neg fun hw => htimes.windows hw.2, if_neg fun hw => htimes.other_windows hw.1]
  have hlater : app.lastUserTime < other.lastUserTime := by
    show app.lastUserTime.toNat < other.lastUserTime.toNat
    omega
  have hbefore : compare other app < 0 := by
    refine h.documented other hother app happ (.recent htimes.other_running htimes.running ?_ hlater)
    rw [← App.isMinimized_eq_false htimes.other_running, ← App.isMinimized_eq_false htimes.running,
      htimes.minimized]
  have hstrict : compare other app < 0 ↔ 0 < compare app other :=
    h.preorders.strict ⟨other, hother⟩ ⟨app, happ⟩
  rcases subTimes_of_far hfar with hpos | ⟨_, hneg⟩
  · exact absurd hbefore (not_lt_of_gt (htwo ▸ hpos))
  · exact absurd (hone ▸ hstrict.mp hbefore) (not_lt_of_gt hneg)

/-- **When the applications are ordered.** No one of them is stopped while another is starting, and
the times that are compared are less than `2^31` apart. -/
theorem orders_iff (S : Set App) : Orders S ↔ NotBoth S ∧ TimesClose S := by
  constructor
  · intro h
    exact ⟨h.notBoth, h.timesClose⟩
  · rintro ⟨hstates, hclose⟩
    exact .of_close hstates hclose

/-- A stopped application and a starting one both come after the other. -/
theorem not_orders_univ : ¬Orders Set.univ := by
  intro h
  have hstrict : compare ⟨.starting, none, by decide⟩ ⟨.stopped, none, by decide⟩ < 0 ↔
      0 < compare ⟨.stopped, none, by decide⟩ ⟨.starting, none, by decide⟩ :=
    h.preorders.strict ⟨⟨.starting, none, by decide⟩, trivial⟩ ⟨⟨.stopped, none, by decide⟩, trivial⟩
  exact absurd hstrict (by decide)

end ShellAppCompare
